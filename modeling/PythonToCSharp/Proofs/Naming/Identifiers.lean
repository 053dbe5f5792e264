import Mathlib.Data.List.Forall2
import PythonToCSharp.Proofs.Lowering.OperatorText
import PythonToCSharp.Proofs.Naming.Origins

/-!
The names in lowered expressions, patterns and targets are those that are listed for them, each
spelled by itself: the receiver of the method is `this`, whatever scopes stand around the name.
-/

namespace PythonToCSharp.CSharp

mutual

/-- The names in an expression, as they are spelled, in the order in which they are written. -/
def Expr.identifiers : Expr → List String
  | .name text => [text]
  | .interpolated _ parts => identifiersParts parts
  | .binary _ left right => left.identifiers ++ right.identifiers
  | .unary _ operand => operand.identifiers
  | .conditional test body orelse => test.identifiers ++ (body.identifiers ++ orelse.identifiers)
  | .lambda _ body => body.identifiers
  | .assign target value => target :: value.identifiers
  | .member value _ => value.identifiers
  | .index value arguments => value.identifiers ++ identifiersList arguments
  | .range lower upper step => identifiersOption lower ++
      (identifiersOption upper ++ identifiersOption step)
  | .call func arguments => func.identifiers ++ identifiersArgs arguments
  | .create type arguments => type.identifiers ++ identifiersArgs arguments
  | .collection _ items => identifiersList items
  | .dictionary _ entries => identifiersEntries entries
  | .tuple items => identifiersList items
  | .query clauses element value => identifiersClauses clauses ++
      (element.identifiers ++ identifiersOption value)
  | .await value => value.identifiers
  | .yield value => identifiersOption value
  | .yieldFrom value => value.identifiers
  | .spread value => value.identifiers
  | _ => []

/-- The names in expressions. -/
def identifiersList : List Expr → List String
  | [] => []
  | e :: rest => e.identifiers ++ identifiersList rest

/-- The names in an optional expression. -/
def identifiersOption : Option Expr → List String
  | none => []
  | some e => e.identifiers

/-- The names in the parts of an interpolated string. -/
def identifiersParts : List InterpolatedPart → List String
  | [] => []
  | .text _ :: rest => identifiersParts rest
  | .hole e _ :: rest => e.identifiers ++ identifiersParts rest

/-- The names in arguments. -/
def identifiersArgs : List Argument → List String
  | [] => []
  | .positional e :: rest => e.identifiers ++ identifiersArgs rest
  | .named _ e :: rest => e.identifiers ++ identifiersArgs rest

/-- The names in the entries of a new dictionary. -/
def identifiersEntries : List Entry → List String
  | [] => []
  | .pair key value :: rest => key.identifiers ++ (value.identifiers ++ identifiersEntries rest)
  | .bare e :: rest => e.identifiers ++ identifiersEntries rest

/-- The names in the clauses of a query. -/
def identifiersClauses : List Clause → List String
  | [] => []
  | .from_ target source :: rest => target.identifiers ++
      (source.identifiers ++ identifiersClauses rest)
  | .let_ target value :: rest => target.identifiers ++
      (value.identifiers ++ identifiersClauses rest)
  | .where_ test :: rest => test.identifiers ++ identifiersClauses rest

end

mutual

/-- The names in a pattern. Those that it binds are no expressions and not among them. -/
def Pattern.identifiers : Pattern → List String
  | .constant value => value.identifiers
  | .list items => identifiersPatterns items
  | .positional items => identifiersPatterns items
  | .entries items _ => identifiersPairs items
  | .type _ positional properties => identifiersPatterns positional ++
      identifiersProperties properties
  | .or alternatives => identifiersPatterns alternatives
  | .named pattern _ => pattern.identifiers
  | _ => []

/-- The names in patterns. -/
def identifiersPatterns : List Pattern → List String
  | [] => []
  | p :: rest => p.identifiers ++ identifiersPatterns rest

/-- The names in the entries of a pattern. -/
def identifiersPairs : List (Pattern × Pattern) → List String
  | [] => []
  | (key, value) :: rest => key.identifiers ++ (value.identifiers ++ identifiersPairs rest)

/-- The names in the properties of a pattern. -/
def identifiersProperties : List (String × Pattern) → List String
  | [] => []
  | (_, p) :: rest => p.identifiers ++ identifiersProperties rest

end

theorem identifiersClauses_append (first rest : List Clause) :
    identifiersClauses (first ++ rest) = identifiersClauses first ++ identifiersClauses rest := by
  induction first with
  | nil => rfl
  | cons clause others ih => cases clause <;> simp [identifiersClauses, ih]

end PythonToCSharp.CSharp

namespace PythonToCSharp.Lowering

open CSharp (Expr.identifiers identifiersArgs identifiersClauses identifiersClauses_append
  identifiersEntries
  identifiersList identifiersOption identifiersPairs identifiersParts identifiersPatterns
    identifiersProperties)
open Python (Binder Origin)
open Python.Expr (helperOrigins linkOrigins originsArgs originsClauses originsItems originsLinks
  originsList originsOption originsParts originsUnpacked targetOriginsAll tupleOrigins)
open Python.Pattern (literalsAll literalsEntries literalsKeywords)

variable {α β : Type} {self : Option String} {origins first rest : List Origin}
  {texts : List String}

/-! ## Names and their spelling -/

/-- The name is spelled where `self` stands for the instance, without regard to the scopes around
it. -/
def Shown (self : Option String) : Origin → String → Prop
  | .source id _, text => text = spelling self id
  | .generated, _ => True

/-- The names are those that are listed, one by one. -/
abbrev ShownAll (self : Option String) (origins : List Origin) (texts : List String) : Prop :=
  List.Forall₂ (Shown self) origins texts

namespace ShownAll

theorem append {texts' : List String} (h : ShownAll self first texts)
    (h' : ShownAll self rest texts') : ShownAll self (first ++ rest) (texts ++ texts') :=
  List.rel_append h h'

theorem generated {text : String} (h : ShownAll self rest texts) :
    ShownAll self (.generated :: rest) (text :: texts) :=
  .cons trivial h

theorem within (h : ShownAll self origins texts) (binder : Binder) :
    ShownAll self (origins.map (.within binder)) texts := by
  refine List.forall₂_map_left_iff.2 (h.imp fun origin text hshown => ?_)
  cases origin with
  | source id binders => exact hshown
  | generated => trivial

end ShownAll

/-- The expression is lowered to one whose names are those that are listed for it. -/
def ShownAs (self : Option String) (e : Python.Expr) (lowered : CSharp.Expr) : Prop :=
  ShownAll self e.origins lowered.identifiers

/-- Where `self` stands for the instance, the step gives a result with a property and leaves it so.
-/
def YieldsThat (self : Option String) (P : α → Prop) (step : Render α) : Prop :=
  ∀ s : State, s.scopes.receiver = self → P (step s).1 ∧ (step s).2.scopes.receiver = self

namespace YieldsThat

variable {P : α → Prop} {Q : β → Prop}

theorem pure {a : α} (h : P a) : YieldsThat self P (Pure.pure a : Render α) :=
  fun _ hs => ⟨h, hs⟩

theorem bind {x : Render α} {f : α → Render β} (hx : YieldsThat self P x)
    (hf : ∀ a, P a → YieldsThat self Q (f a)) : YieldsThat self Q (x >>= f) := by
  intro s hs
  obtain ⟨ha, hmiddle⟩ := hx s hs
  exact hf (x s).1 ha (x s).2 hmiddle

theorem map {x : Render α} {f : α → β} (hx : YieldsThat self P x) (hf : ∀ a, P a → Q (f a)) :
    YieldsThat self Q (do return f (← x)) :=
  bind hx fun a ha => pure (hf a ha)

/-- A step whose result does not matter. -/
theorem behind {x : Render α} {f : α → Render β} (hx : KeepsPlace x)
    (hf : ∀ a, YieldsThat self Q (f a)) : YieldsThat self Q (x >>= f) := by
  intro s hs
  exact hf (x s).1 (x s).2 ((hx s).1.scopes.receiverEq.trans hs)

end YieldsThat

theorem shown_lowerName (id : String) :
    YieldsThat self (ShownAs self (.name id)) (lowerName id) := by
  intro s hs
  obtain ⟨hname, hafter⟩ := Yields.lowerName id s hs
  rw [hname]
  exact ⟨.cons rfl .nil, hafter⟩

/-! ## Parts of expressions -/

section

variable {left right : Render CSharp.Expr}
  (hl : YieldsThat self (fun l => ShownAll self first l.identifiers) left)
  (hr : YieldsThat self (fun r => ShownAll self rest r.identifiers) right)
include hl hr

theorem shown_infixed (op : CSharp.BinaryOp) :
    YieldsThat self (fun e => ShownAll self (first ++ rest) e.identifiers)
      (infixed op left right) :=
  .bind hl fun _ hleft => .map hr fun _ hright => hleft.append hright

theorem shown_sameObject :
    YieldsThat self (fun e => ShownAll self (.generated :: (first ++ rest)) e.identifiers)
      (sameObject left right) := by
  refine .bind hl fun l hleft => .map hr fun r hright => ?_
  refine .generated (hleft.append ?_)
  simpa [identifiersArgs] using hright

theorem shown_contained :
    YieldsThat self (fun e => ShownAll self (rest ++ first) e.identifiers)
      (contained left right) := by
  refine .bind hr fun r hright => .map hl fun l hleft => ?_
  refine hright.append ?_
  simpa [identifiersArgs] using hleft

theorem shown_compared (op : Python.CmpOp) (withNone : Bool) :
    YieldsThat self (fun e => ShownAll self (linkOrigins op withNone first rest) e.identifiers)
      (compared op withNone left right) := by
  cases op with
  | is =>
    cases withNone with
    | true => exact shown_infixed hl hr _
    | false => exact shown_sameObject hl hr
  | isNot =>
    cases withNone with
    | true => exact shown_infixed hl hr _
    | false => exact .map (shown_sameObject hl hr) fun _ h => h
  | isIn => exact shown_contained hl hr
  | notIn => exact .map (shown_contained hl hr) fun _ h => h
  | _ => exact shown_infixed hl hr _

end

theorem shownAll_operator {l r : CSharp.Expr} (hl : ShownAll self first l.identifiers)
    (hr : ShownAll self rest r.identifiers) (names : LibraryNames) (op : Python.BinaryOp) :
    ShownAll self (helperOrigins op ++ (first ++ rest))
      ((operatorFor names op).apply l r).identifiers := by
  have hhelper (name : String) :
      ShownAll self (.generated :: (first ++ rest))
        (CSharp.Expr.apply name [l, r]).identifiers := by
    refine .generated (hl.append ?_)
    simpa [identifiersArgs] using hr
  cases op with
  | pow => exact hhelper _
  | floorDiv => exact hhelper _
  | matMul => exact hhelper _
  | _ => exact hl.append hr

theorem identifiers_conjunction (pieces : List CSharp.Expr) :
    (conjunction pieces).identifiers = identifiersList pieces := by
  have hfold (front : CSharp.Expr) (others : List CSharp.Expr) :
      (others.foldl (.binary .and) front).identifiers = front.identifiers ++
        identifiersList others := by
    induction others generalizing front with
    | nil => exact (List.append_nil _).symm
    | cons piece others ih => rw [List.foldl_cons, ih, Expr.identifiers, identifiersList,
        List.append_assoc]
  cases pieces with
  | nil => rfl
  | cons front others => exact hfold front others

/-! ### Several expressions -/

section

variable {items : List Python.Expr} {lowered : List CSharp.Expr}
  (h : List.Forall₂ (ShownAs self) items lowered)
include h

theorem shownAll_list : ShownAll self (originsList items) (identifiersList lowered) := by
  induction h with
  | nil => exact .nil
  | cons hitem _ ih => exact hitem.append ih

theorem shownAll_tupleOf (names : LibraryNames) :
    ShownAll self (tupleOrigins items.length ++ originsList items)
      (tupleOf names lowered).identifiers := by
  have hall := shownAll_list h
  cases h with
  | nil => exact .generated hall
  | cons _ hrest =>
    cases hrest with
    | nil => exact .generated hall
    | cons _ _ => exact hall

/-- Each target is followed by the range variable that it is taken from. -/
theorem shownAll_unpacked (range : String) :
    ShownAll self (originsUnpacked items) (identifiersClauses (unpacked range lowered)) := by
  have hclauses (member : Nat → String) : ShownAll self (originsUnpacked items) (identifiersClauses
      (lowered.mapIdx fun i target => .let_ target (.member (.name range) (member i)))) := by
    induction h generalizing member with
    | nil => exact .nil
    | cons hitem _ ih =>
      rw [List.mapIdx_cons]
      exact hitem.append (.generated (ih fun i => member (i + 1)))
  exact hclauses _

/-- A clause with several targets, which are taken from the elements of a range variable. -/
theorem shownAll_fromUnpacked {source : CSharp.Expr} {others : List CSharp.Clause}
    (hsource : ShownAll self first source.identifiers) (binder : Binder) (range : String)
    (hrest : ShownAll self rest (identifiersClauses others)) :
    ShownAll self (.generated :: (first ++ ((originsUnpacked items).map (.within binder) ++ rest)))
      (identifiersClauses (.from_ (.name range) source :: unpacked range lowered ++ others)) := by
  have hunpacked := (shownAll_unpacked h range).within binder
  rw [List.cons_append, identifiersClauses, identifiersClauses_append]
  exact .generated (hsource.append (hunpacked.append hrest))

end

/-- What a comprehension goes through first stands outside of its scope. -/
theorem shownAll_source {source : Python.Expr} {lowered : CSharp.Expr}
    (h : ShownAs self source lowered) (binder : Binder) (outside : Bool) :
    ShownAll self (if outside then source.origins else source.origins.map (.within binder))
      lowered.identifiers := by
  cases outside with
  | true => exact h
  | false => exact ShownAll.within h binder

/-! ## Expressions -/

variable (names : LibraryNames)

mutual

theorem shown_lowerExpr : ∀ e : Python.Expr, YieldsThat self (ShownAs self e) (lowerExpr names e)
  | .name id => shown_lowerName id
  | .int _ | .float _ | .str _ | .bool _ | .none => .pure .nil
  | .imaginary _ => .pure (.generated .nil)
  | .fstring parts raw => .map (shown_lowerParts raw parts) fun _ h => h
  | .ellipsis => .behind (keepsPlace_warn _ _) fun _ => .pure .nil
  | .binary left op right => by
    refine .bind (shown_lowerExpr left) fun l hl => .map (shown_lowerExpr right) fun r hr => ?_
    exact shownAll_operator hl hr names op
  | .unary op operand => .map (shown_lowerExpr operand) fun _ h => h
  | .boolean op left right => shown_infixed (shown_lowerExpr left) (shown_lowerExpr right) _
  | .compare left links => by
    refine .map (shown_lowerComparisons (shown_lowerExpr left) links) fun pieces h => ?_
    rw [ShownAs, identifiers_conjunction]
    exact h
  | .ifExp test body orelse =>
    .bind (shown_lowerExpr test) fun _ ht => .bind (shown_lowerExpr body) fun _ hb =>
      .map (shown_lowerExpr orelse) fun _ ho => ht.append (hb.append ho)
  | .lambda params body =>
    .behind (composed_lowerLambdaParams params).keepsPlace fun _ =>
      .map (shown_lowerExpr body) fun _ h => ShownAll.within h _
  | .named target value => by
    refine .behind (keepsPlace_modifyFrame fun frame => frame.grows_record target) fun _ => ?_
    intro s hs
    obtain ⟨hname, hmiddle⟩ := Yields.lowerName target s hs
    obtain ⟨hvalue, hafter⟩ := shown_lowerExpr value (lowerName target s).2 hmiddle
    refine ⟨?_, hafter⟩
    show ShownAll self (.source target [] :: value.origins) ((lowerName target s).1.text :: _)
    rw [hname]
    exact .cons rfl hvalue
  | .attribute value attr => .map (shown_lowerExpr value) fun _ h => h
  | .subscript value index =>
    .bind (shown_lowerExpr value) fun _ hv =>
      .map (shown_lowerList index) fun _ hi => hv.append (shownAll_list hi)
  | .slice lower upper step =>
    .bind (shown_lowerOption lower) fun _ hl => .bind (shown_lowerOption upper) fun _ hu =>
      .map (shown_lowerOption step) fun _ hs => hl.append (hu.append hs)
  | .call func args =>
    .bind (shown_lowerExpr func) fun _ hf => .map (shown_lowerArgs args) fun _ ha => hf.append ha
  | .list items => .map (shown_lowerList items) fun _ h => shownAll_list h
  | .set items => .map (shown_lowerList items) fun _ h => shownAll_list h
  | .tuple items => .map (shown_lowerList items) fun _ h => shownAll_tupleOf h names
  | .dict items => .map (shown_lowerItems items) fun _ h => h
  | .comprehension kind element value clauses => by
    refine .bind (shown_lowerClauses (.comprehension clauses) true clauses) fun _ hc => ?_
    refine .bind (shown_lowerExpr element) fun _ he => ?_
    have hquery := hc.append (ShownAll.within he (.comprehension clauses))
    cases kind with
    | dict =>
      exact .map (shown_lowerOption value) fun _ hv => hc.append (ShownAll.within (he.append hv) _)
    | _ =>
      refine .pure ?_
      rw [ShownAs, Expr.identifiers, identifiersOption, List.append_nil]
      exact hquery
  | .await value => .map (shown_lowerExpr value) fun _ h => h
  | .yield value => .behind (keepsPlace_warn _ _) fun _ =>
      .map (shown_lowerOption value) fun _ h => h
  | .yieldFrom value => .behind (keepsPlace_warn _ _) fun _ =>
      .map (shown_lowerExpr value) fun _ h => h
  | .starred value => .behind (keepsPlace_warn _ _) fun _ =>
      .map (shown_lowerExpr value) fun _ h => h
  | .unsupported kind text span => .behind (keepsPlace_report _ _ _ _) fun _ => .pure .nil

theorem shown_lowerList :
    ∀ items : List Python.Expr,
      YieldsThat self (List.Forall₂ (ShownAs self) items) (lowerList names items)
  | [] => .pure .nil
  | e :: rest =>
    .bind (shown_lowerExpr e) fun _ he => .map (shown_lowerList rest) fun _ hr => .cons he hr

theorem shown_lowerOption : ∀ e : Option Python.Expr,
    YieldsThat self (fun lowered => ShownAll self (originsOption e) (identifiersOption lowered))
      (lowerOption names e)
  | none => .pure .nil
  | some e => .map (shown_lowerExpr e) fun _ h => h

theorem shown_lowerComparisons {left : Render CSharp.Expr} {before : List Origin}
    (hl : YieldsThat self (fun l => ShownAll self before l.identifiers) left) :
    ∀ links : List (Python.CmpOp × Python.Expr),
      YieldsThat self (fun pieces => ShownAll self (originsLinks before links)
        (identifiersList pieces)) (lowerComparisons names left links)
  | [] => .pure .nil
  | (op, right) :: rest =>
    have hr := shown_lowerExpr right
    .bind (shown_compared hl hr op _) fun _ hpiece =>
      .map (shown_lowerComparisons hr rest) fun _ hrest => hpiece.append hrest

theorem shown_lowerParts (raw : Bool) : ∀ parts : List Python.FStringPart,
    YieldsThat self (fun lowered => ShownAll self (originsParts parts) (identifiersParts lowered))
      (lowerParts names raw parts)
  | [] => .pure .nil
  | .literal _ :: rest => .map (shown_lowerParts raw rest) fun _ h => h
  | .interpolation e _ :: rest =>
    .bind (shown_lowerExpr e) fun _ he => .map (shown_lowerParts raw rest) fun _ hr => he.append hr

theorem shown_lowerArgs : ∀ args : List Python.Arg,
    YieldsThat self (fun lowered => ShownAll self (originsArgs args) (identifiersArgs lowered))
      (lowerArgs names args)
  | [] => .pure .nil
  | .positional e :: rest =>
    .bind (shown_lowerExpr e) fun _ he => .map (shown_lowerArgs rest) fun _ hr => he.append hr
  | .keyword _ e :: rest =>
    .bind (shown_lowerExpr e) fun _ he => .map (shown_lowerArgs rest) fun _ hr => he.append hr
  | .star e :: rest =>
    .bind (shown_lowerExpr e) fun _ he => .map (shown_lowerArgs rest) fun _ hr => he.append hr
  | .doubleStar e :: rest =>
    .behind (keepsPlace_warn _ _) fun _ =>
      .bind (shown_lowerExpr e) fun _ he => .map (shown_lowerArgs rest) fun _ hr => he.append hr

theorem shown_lowerItems : ∀ items : List Python.DictItem,
    YieldsThat self (fun lowered => ShownAll self (originsItems items) (identifiersEntries lowered))
      (lowerItems names items)
  | [] => .pure .nil
  | .pair key value :: rest =>
    .bind (shown_lowerExpr key) fun _ hk => .bind (shown_lowerExpr value) fun _ hv =>
      .map (shown_lowerItems rest) fun _ hr => hk.append (hv.append hr)
  | .splat e :: rest =>
    .behind (keepsPlace_warn _ _) fun _ =>
      .bind (shown_lowerExpr e) fun _ he => .map (shown_lowerItems rest) fun _ hr => he.append hr

theorem shown_lowerClauses (binder : Binder) (outside : Bool) : ∀ clauses : List Python.Clause,
      YieldsThat self (fun lowered => ShownAll self (originsClauses binder outside clauses)
        (identifiersClauses lowered)) (lowerClauses names clauses)
  | [] => .pure .nil
  | .forIn target iter :: rest => by
    have hi := shown_lowerExpr iter
    have hr := shown_lowerClauses binder false rest
    have ht := shown_lowerExpr target
    cases target with
    | tuple targets =>
      exact .bind hi fun _ hiter => .behind (keepsPlace_fresh _) fun range =>
        .bind (shown_lowerList targets) fun _ hitems => .map hr fun _ hrest =>
          shownAll_fromUnpacked hitems (shownAll_source hiter binder outside) binder range hrest
    | list targets =>
      exact .bind hi fun _ hiter => .behind (keepsPlace_fresh _) fun range =>
        .bind (shown_lowerList targets) fun _ hitems => .map hr fun _ hrest =>
          shownAll_fromUnpacked hitems (shownAll_source hiter binder outside) binder range hrest
    | _ =>
      exact .bind hi fun _ hiter => .bind ht fun _ htarget => .map hr fun _ hrest =>
        (ShownAll.within htarget binder).append
          ((shownAll_source hiter binder outside).append hrest)
  | .onlyIf test :: rest =>
    .bind (shown_lowerExpr test) fun _ ht =>
      .map (shown_lowerClauses binder outside rest) fun _ hr =>
        (ShownAll.within ht binder).append hr

end

/-! ## Targets -/

/-- The target is lowered to an expression whose names are those that are listed for it. -/
def TargetShownAs (self : Option String) (target : Python.Expr) (lowered : CSharp.Expr) : Prop :=
  ShownAll self target.targetOrigins lowered.identifiers

theorem shownAll_targets {targets : List Python.Expr} {lowered : List CSharp.Expr}
    (h : List.Forall₂ (TargetShownAs self) targets lowered) :
    ShownAll self (targetOriginsAll targets) (identifiersList lowered) := by
  induction h with
  | nil => exact .nil
  | cons htarget _ ih => exact htarget.append ih

mutual

theorem shown_lowerTarget (target : Python.Expr) :
    YieldsThat self (TargetShownAs self target) (lowerTarget names target) := by
  cases target with
  | tuple items => exact .map (shown_lowerTargets items) fun _ h => shownAll_targets h
  | list items => exact .map (shown_lowerTargets items) fun _ h => shownAll_targets h
  | starred value => exact .behind (keepsPlace_warn _ _) fun _ => shown_lowerTarget value
  | _ => exact shown_lowerExpr names _

theorem shown_lowerTargets : ∀ targets : List Python.Expr,
    YieldsThat self (List.Forall₂ (TargetShownAs self) targets) (lowerTargets names targets)
  | [] => .pure .nil
  | target :: rest =>
    .bind (shown_lowerTarget target) fun _ ht =>
      .map (shown_lowerTargets rest) fun _ hr => .cons ht hr

end

/-! ## Patterns -/

theorem originsList_append (front back : List Python.Expr) :
    originsList (front ++ back) = originsList front ++ originsList back := by
  induction front with
  | nil => rfl
  | cons e others ih => rw [List.cons_append, originsList, ih, originsList, List.append_assoc]

theorem originsList_singleton (e : Python.Expr) : originsList [e] = e.origins :=
  List.append_nil _

/-- The pattern is lowered to one whose names are those of its literals. -/
def PatternShownAs (self : Option String) (pattern : Python.Pattern)
    (lowered : CSharp.Pattern) : Prop :=
  ShownAll self (originsList pattern.literals) lowered.identifiers

theorem shown_namedPattern {pattern : Python.Pattern} {step : Render CSharp.Pattern}
    (h : YieldsThat self (PatternShownAs self pattern) step) (name : String) :
    YieldsThat self (PatternShownAs self (.asName pattern name))
      (namedPattern pattern step name) := by
  cases pattern with
  | wildcard => exact .pure .nil
  | _ => exact .map h fun _ hp => hp

mutual

theorem shown_lowerPattern :
    ∀ pattern : Python.Pattern,
      YieldsThat self (PatternShownAs self pattern) (lowerPattern names pattern)
  | .wildcard => .pure .nil
  | .capture _ => .pure .nil
  | .literal value => .map (shown_lowerExpr names value) fun _ h => by
    rw [PatternShownAs, Python.Pattern.literals, originsList_singleton]
    exact h
  | .value _ => .pure .nil
  | .sequence items => .map (shown_lowerPatterns items) fun _ h => h
  | .star _ => .pure .nil
  | .mapping items _ => .behind (keepsPlace_warn _ _) fun _ =>
      .map (shown_lowerEntries items) fun _ h => h
  | .classPattern _ positional keywords =>
    .bind (shown_lowerPatterns positional) fun _ hp =>
      .map (shown_lowerKeywords keywords) fun _ hk => by
      rw [PatternShownAs, Python.Pattern.literals, originsList_append]
      exact hp.append hk
  | .either alternatives => .map (shown_lowerPatterns alternatives) fun _ h => h
  | .asName pattern name => shown_namedPattern (shown_lowerPattern pattern) name
  | .unsupported _ _ _ => .behind (keepsPlace_report _ _ _ _) fun _ => .pure .nil

theorem shown_lowerPatterns : ∀ patterns : List Python.Pattern,
    YieldsThat self (fun lowered => ShownAll self (originsList (literalsAll patterns))
      (identifiersPatterns lowered)) (lowerPatterns names patterns)
  | [] => .pure .nil
  | p :: rest =>
    .bind (shown_lowerPattern p) fun _ hp => .map (shown_lowerPatterns rest) fun _ hr => by
      rw [literalsAll, originsList_append]
      exact hp.append hr

theorem shown_lowerEntries : ∀ entries : List (Python.Pattern × Python.Pattern),
    YieldsThat self (fun lowered => ShownAll self (originsList (literalsEntries entries))
      (identifiersPairs lowered)) (lowerEntries names entries)
  | [] => .pure .nil
  | (key, value) :: rest =>
    .bind (shown_lowerPattern key) fun _ hk => .bind (shown_lowerPattern value) fun _ hv =>
      .map (shown_lowerEntries rest) fun _ hr => by
        rw [literalsEntries, originsList_append, originsList_append]
        exact hk.append (hv.append hr)

theorem shown_lowerKeywords : ∀ keywords : List (String × Python.Pattern), YieldsThat self
      (fun lowered => ShownAll self (originsList (literalsKeywords keywords))
        (identifiersProperties lowered))
      (lowerKeywords names keywords)
  | [] => .pure .nil
  | (_, p) :: rest =>
    .bind (shown_lowerPattern p) fun _ hp => .map (shown_lowerKeywords rest) fun _ hr => by
      rw [literalsKeywords, originsList_append]
      exact hp.append hr

end

theorem shown_lowerCasePattern (tupleSubject : Bool) (pattern : Python.Pattern) :
    YieldsThat self (PatternShownAs self pattern)
      (lowerCasePattern names tupleSubject pattern) := by
  unfold lowerCasePattern
  split
  · split
    · exact .map (shown_lowerPatterns names _) fun _ h => h
    · exact shown_lowerPattern names _
  · exact shown_lowerPattern names pattern

end PythonToCSharp.Lowering
