import PythonToCSharp.Lowering.Definition
import PythonToCSharp.Proofs.Naming.Expressions

/-!
The steps that lower expressions, patterns and targets have the effects that are listed for them,
from every state.
-/

namespace PythonToCSharp.Lowering

open CSharp (escapeIdentifier)
open Python.Expr (effectsList effectsList_append effectsOption effectsCompared effectsParts
  effectsArgs effectsItems effectsClauses inOrder)
open Scope (Effect Frame Operation Stack)

variable {α β : Type} {effect : Effect} {effects first rest : List Effect}

/-- The step has the effects on the names of the open scopes. -/
def Performs (effects : List Effect) (step : Render α) : Prop :=
  ∀ s, (step s).2.scopes.ledger = s.scopes.ledger.performAll effects

namespace Performs

theorem pure (a : α) : Performs [] (Pure.pure a : Render α) :=
  fun _ => rfl

theorem bind {x : Render α} {f : α → Render β} (hx : Performs first x)
    (hf : ∀ a, Performs rest (f a)) : Performs (first ++ rest) (x >>= f) := by
  intro s
  rw [Stack.performAll_append, ← hx s]
  exact hf (x s).1 (x s).2

/-- A step with one effect comes first. -/
theorem cons {x : Render α} {f : α → Render β} (hx : Performs [effect] x)
    (hf : ∀ a, Performs rest (f a)) : Performs (effect :: rest) (x >>= f) :=
  bind hx hf

/-- A step without effects comes first. -/
theorem silent {x : Render α} {f : α → Render β} (hx : Performs [] x)
    (hf : ∀ a, Performs rest (f a)) : Performs rest (x >>= f) :=
  bind hx hf

theorem map {x : Render α} (hx : Performs effects x) (f : α → β) :
    Performs effects (do return f (← x)) :=
  fun s => hx s

theorem ite {c : Prop} [Decidable c] {x y : Render α} (hx : Performs effects x)
    (hy : Performs effects y) : Performs effects (if c then x else y) := by
  split
  · exact hx
  · exact hy

theorem get : Performs [] (MonadState.get : Render State) :=
  fun _ => rfl

theorem forM {step : α → Render PUnit} {f : α → List Effect} (h : ∀ a, Performs (f a) (step a))
    (items : List α) : Performs (items.flatMap f) (items.forM step) := by
  induction items with
  | nil => exact pure _
  | cons item rest ih => exact bind (h item) fun _ => ih

end Performs

/-! ## Single steps -/

theorem performs_report (severity : Severity) (kind : String) (span : Python.Span)
    (message : String) : Performs [] (report severity kind span message) :=
  fun _ => rfl

theorem performs_warn (kind message : String) : Performs [] (warn kind message) :=
  .silent .get fun _ => performs_report _ _ _ _

theorem performs_note (kind message : String) : Performs [] (note kind message) :=
  .silent .get fun _ => performs_report _ _ _ _

theorem performs_addUsing (directive : String) : Performs [] (addUsing directive) :=
  fun _ => rfl

theorem performs_receiver : Performs [] receiver :=
  .map .get _

theorem performs_currentFrame : Performs [] currentFrame :=
  .map .get _

theorem performs_modifyFrame (op : Operation) : Performs [.here op] (modifyFrame (·.apply op)) :=
  fun s => s.scopes.ledger_modifyCurrent fun frame => frame.ledger_apply op

/-- A change that leaves the names of the frame alone. -/
theorem performs_hidden {f : Frame → Frame} (h : ∀ frame : Frame, (f frame).ledger = frame.ledger) :
    Performs [] (modifyFrame f) :=
  fun s => s.scopes.ledger_modifyCurrent_hidden h

theorem performs_recordInModule (name : String) :
    Performs [.inModule name] (modifyRoot (·.record name)) := by
  intro s
  show (s.scopes.modifyRoot (·.record name)).ledger = s.scopes.ledger.modifyRoot (·.record name)
  simp [Stack.modifyRoot, Stack.ledger, Frame.ledger_record]

theorem performs_fresh (base : String) : Performs [.here (.fresh base)] (fresh base) := by
  intro s
  have hframe : (fresh base s).2.scopes = s.scopes.modifyCurrent (·.apply (.fresh base)) :=
    s.scopes.modifyCurrent_congr (f := fun _ => (s.scopes.current.fresh base).2) rfl
  rw [hframe]
  exact performs_modifyFrame (.fresh base) s

theorem performs_enterTry : Performs [.here .enterTry] enterTry := by
  intro s
  have hframe : (enterTry s).2.scopes = s.scopes.modifyCurrent (·.apply .enterTry) :=
    s.scopes.modifyCurrent_congr (f := fun _ => s.scopes.current.enterTry.2) rfl
  rw [hframe]
  exact performs_modifyFrame .enterTry s

/-! ## Expressions -/

theorem performs_lowerName (id : String) : Performs [] (lowerName id) :=
  .silent performs_receiver fun _ => .ite (.pure _) (.pure _)

theorem Performs.infixed {op : CSharp.BinaryOp} {left right : Render CSharp.Expr}
    (hl : Performs first left)
    (hr : Performs rest right) : Performs (first ++ rest) (infixed op left right) :=
  .bind hl fun _ => .map hr _

theorem Performs.sameObject {left right : Render CSharp.Expr} (hl : Performs first left)
    (hr : Performs rest right) : Performs (first ++ rest) (sameObject left right) :=
  .bind hl fun _ => .map hr _

theorem Performs.contained {item container : Render CSharp.Expr} (hi : Performs first item)
    (hc : Performs rest container) : Performs (rest ++ first) (contained item container) :=
  .bind hc fun _ => .map hi _

theorem Performs.compared {left right : Render CSharp.Expr} (hl : Performs first left)
    (hr : Performs rest right) (op : Python.CmpOp) (withNone : Bool) :
    Performs (inOrder op first rest) (compared op withNone left right) := by
  cases op with
  | is => exact .ite (.infixed hl hr) (.sameObject hl hr)
  | isNot => exact .ite (.infixed hl hr) (.map (.sameObject hl hr) _)
  | isIn => exact .contained hl hr
  | notIn => exact .map (.contained hl hr) _
  | _ => exact .infixed hl hr

theorem performs_lowerLambdaParams :
    ∀ params : List Python.Param, Performs [] (lowerLambdaParams params)
  | [] => .pure _
  | param :: rest => by
    have hr : Performs [] (do return escapeIdentifier param.name :: (← lowerLambdaParams rest)) :=
      .map (performs_lowerLambdaParams rest) _
    unfold lowerLambdaParams
    split
    · exact .silent (performs_warn _ _) fun _ => hr
    · exact hr

variable (names : LibraryNames)

mutual

theorem performs_lowerExpr : ∀ e : Python.Expr, Performs e.effects (lowerExpr names e)
  | .name id => performs_lowerName id
  | .int _ => .pure _
  | .float _ => .pure _
  | .imaginary _ => .pure _
  | .str _ => .pure _
  | .fstring parts raw => .map (performs_lowerParts raw parts) _
  | .bool _ => .pure _
  | .none => .pure _
  | .ellipsis => .silent (performs_warn _ _) fun _ => .pure _
  | .binary left _ right => .bind (performs_lowerExpr left) fun _ =>
      .map (performs_lowerExpr right) _
  | .unary _ operand => .map (performs_lowerExpr operand) _
  | .boolean _ left right => .infixed (performs_lowerExpr left) (performs_lowerExpr right)
  | .compare left comparisons =>
    .map (performs_lowerComparisons (performs_lowerExpr left) comparisons) _
  | .ifExp test body orelse =>
    .bind (performs_lowerExpr test) fun _ => .bind (performs_lowerExpr body) fun _ =>
      .map (performs_lowerExpr orelse) _
  | .lambda params body =>
    .silent (performs_lowerLambdaParams params) fun _ => .map (performs_lowerExpr body) _
  | .named target value =>
    .cons (performs_modifyFrame (.record target)) fun _ =>
      .silent (performs_lowerName target) fun _ => .map (performs_lowerExpr value) _
  | .attribute value _ => .map (performs_lowerExpr value) _
  | .subscript value index =>
    .bind (performs_lowerExpr value) fun _ => .map (performs_lowerList index) _
  | .slice lower upper step =>
    .bind (performs_lowerOption lower) fun _ => .bind (performs_lowerOption upper) fun _ =>
      .map (performs_lowerOption step) _
  | .call func args => .bind (performs_lowerExpr func) fun _ => .map (performs_lowerArgs args) _
  | .list items => .map (performs_lowerList items) _
  | .set items => .map (performs_lowerList items) _
  | .tuple items => .map (performs_lowerList items) _
  | .dict items => .map (performs_lowerItems items) _
  | .comprehension kind element value clauses => by
    have hc := performs_lowerClauses clauses
    have he := performs_lowerExpr element
    have hv := performs_lowerOption value
    cases kind with
    | dict => exact .bind hc fun _ => .bind he fun _ => .map hv _
    | _ => exact .bind hc fun _ => .map he _
  | .await value => .map (performs_lowerExpr value) _
  | .yield value => .silent (performs_warn _ _) fun _ => .map (performs_lowerOption value) _
  | .yieldFrom value => .silent (performs_warn _ _) fun _ => .map (performs_lowerExpr value) _
  | .starred value => .silent (performs_warn _ _) fun _ => .map (performs_lowerExpr value) _
  | .unsupported _ _ _ => .silent (performs_report _ _ _ _) fun _ => .pure _

theorem performs_lowerList :
    ∀ items : List Python.Expr, Performs (effectsList items) (lowerList names items)
  | [] => .pure _
  | e :: rest => .bind (performs_lowerExpr e) fun _ => .map (performs_lowerList rest) _

theorem performs_lowerOption :
    ∀ e : Option Python.Expr, Performs (effectsOption e) (lowerOption names e)
  | none => .pure _
  | some e => .map (performs_lowerExpr e) _

theorem performs_lowerComparisons {left : Render CSharp.Expr} {before : List Effect}
    (hl : Performs before left) : ∀ links : List (Python.CmpOp × Python.Expr),
      Performs (effectsCompared before links) (lowerComparisons names left links)
  | [] => .pure _
  | (op, right) :: rest =>
    .bind (.compared hl (performs_lowerExpr right) op _) fun _ =>
      .map (performs_lowerComparisons (performs_lowerExpr right) rest) _

theorem performs_lowerParts (raw : Bool) :
    ∀ parts : List Python.FStringPart, Performs (effectsParts parts) (lowerParts names raw parts)
  | [] => .pure _
  | .literal _ :: rest => .map (performs_lowerParts raw rest) _
  | .interpolation e _ :: rest =>
    .bind (performs_lowerExpr e) fun _ => .map (performs_lowerParts raw rest) _

theorem performs_lowerArgs :
    ∀ args : List Python.Arg, Performs (effectsArgs args) (lowerArgs names args)
  | [] => .pure _
  | .positional value :: rest =>
    .bind (performs_lowerExpr value) fun _ => .map (performs_lowerArgs rest) _
  | .keyword _ value :: rest =>
    .bind (performs_lowerExpr value) fun _ => .map (performs_lowerArgs rest) _
  | .star value :: rest =>
    .bind (performs_lowerExpr value) fun _ => .map (performs_lowerArgs rest) _
  | .doubleStar value :: rest =>
    .silent (performs_warn _ _) fun _ => .bind (performs_lowerExpr value) fun _ =>
      .map (performs_lowerArgs rest) _

theorem performs_lowerItems :
    ∀ items : List Python.DictItem, Performs (effectsItems items) (lowerItems names items)
  | [] => .pure _
  | .pair key value :: rest =>
    .bind (performs_lowerExpr key) fun _ => .bind (performs_lowerExpr value) fun _ =>
      .map (performs_lowerItems rest) _
  | .splat value :: rest =>
    .silent (performs_warn _ _) fun _ => .bind (performs_lowerExpr value) fun _ =>
      .map (performs_lowerItems rest) _

theorem performs_lowerClauses :
    ∀ clauses : List Python.Clause, Performs (effectsClauses clauses) (lowerClauses names clauses)
  | [] => .pure _
  | .forIn target iter :: rest => by
    have hi := performs_lowerExpr iter
    have hr := performs_lowerClauses rest
    have ht := performs_lowerExpr target
    cases target with
    | tuple targets =>
      exact .bind hi fun _ => .bind (performs_fresh "_t") fun _ =>
        .bind (performs_lowerList targets) fun _ => .map hr _
    | list targets =>
      exact .bind hi fun _ => .bind (performs_fresh "_t") fun _ =>
        .bind (performs_lowerList targets) fun _ => .map hr _
    | _ =>
      refine .bind hi fun _ => ?_
      show Performs (Python.Expr.effects _ ++ effectsClauses rest) _
      exact .bind ht fun _ => .map hr _
  | .onlyIf test :: rest =>
    .bind (performs_lowerExpr test) fun _ => .map (performs_lowerClauses rest) _

end

/-! ## Patterns -/

theorem Performs.of_eq {x : Render α} (hx : Performs first x) (h : first = rest) :
    Performs rest x :=
  h ▸ hx

theorem Performs.namedPattern {pattern : Python.Pattern} {lowered : Render CSharp.Pattern}
    (h : Performs (effectsList pattern.literals) lowered) (name : String) :
    Performs (effectsList pattern.literals) (namedPattern pattern lowered name) := by
  cases pattern with
  | wildcard => exact .pure _
  | _ => exact .map h _

mutual

theorem performs_lowerPattern :
    ∀ pattern : Python.Pattern, Performs (effectsList pattern.literals) (lowerPattern names pattern)
  | .wildcard => .pure _
  | .capture _ => .pure _
  | .literal value => (Performs.map (performs_lowerExpr names value) _).of_eq
      (List.append_nil _).symm
  | .value _ => .pure _
  | .sequence items => .map (performs_lowerPatterns items) _
  | .star _ => .pure _
  | .mapping items _ => .silent (performs_warn _ _) fun _ => .map (performs_lowerEntries items) _
  | .classPattern _ positional keywords =>
    (Performs.bind (performs_lowerPatterns positional) fun _ =>
      .map (performs_lowerKeywords keywords) _).of_eq (effectsList_append _ _).symm
  | .either alternatives => .map (performs_lowerPatterns alternatives) _
  | .asName pattern name => .namedPattern (performs_lowerPattern pattern) name
  | .unsupported _ _ _ => .silent (performs_report _ _ _ _) fun _ => .pure _

theorem performs_lowerPatterns : ∀ patterns : List Python.Pattern,
    Performs (effectsList (Python.Pattern.literalsAll patterns)) (lowerPatterns names patterns)
  | [] => .pure _
  | p :: rest =>
    (Performs.bind (performs_lowerPattern p) fun _ =>
      .map (performs_lowerPatterns rest) _).of_eq (effectsList_append _ _).symm

theorem performs_lowerEntries : ∀ entries : List (Python.Pattern × Python.Pattern),
    Performs (effectsList (Python.Pattern.literalsEntries entries)) (lowerEntries names entries)
  | [] => .pure _
  | (key, value) :: rest =>
    (Performs.bind (performs_lowerPattern key) fun _ =>
      .bind (performs_lowerPattern value) fun _ =>
        .map (performs_lowerEntries rest) _).of_eq
          (by simp [effectsList_append, Python.Pattern.literalsEntries])

theorem performs_lowerKeywords : ∀ keywords : List (String × Python.Pattern),
    Performs (effectsList (Python.Pattern.literalsKeywords keywords)) (lowerKeywords names keywords)
  | [] => .pure _
  | (_, p) :: rest =>
    (Performs.bind (performs_lowerPattern p) fun _ =>
      .map (performs_lowerKeywords rest) _).of_eq (effectsList_append _ _).symm

end

theorem performs_lowerCasePattern (tupleSubject : Bool) (pattern : Python.Pattern) :
    Performs (effectsList pattern.literals) (lowerCasePattern names tupleSubject pattern) := by
  unfold lowerCasePattern
  split
  · exact .ite (.map (performs_lowerPatterns names _) _) (performs_lowerPattern names _)
  · exact performs_lowerPattern names pattern

/-! ## Targets -/

/-- A field of a class is no name of a scope. -/
theorem performs_recordSingle (target : Python.Expr) :
    Performs (target.name?.toList.map fun name => .here (.record name)) (recordSingle target) := by
  have hfield (attr : String) :
      Performs [] (modify fun s =>
        { s with scopes := s.scopes.addClassField attr } : Render PUnit) :=
    fun s => s.scopes.ledger_addClassField attr
  unfold recordSingle
  split
  · exact performs_modifyFrame (.record _)
  · exact .silent performs_receiver fun _ => .ite (hfield _) (.pure _)
  · rename_i hname _
    have hnone : target.name? = none := by
      cases target <;> first | rfl | exact absurd rfl (hname _)
    rw [hnone]
    exact .pure _

theorem performs_recordTarget (target : Python.Expr) :
    Performs target.bindings (recordTarget target) := by
  refine (Performs.forM performs_recordSingle target.targets).of_eq ?_
  unfold Python.Expr.bindings Python.Expr.boundNames
  induction target.targets with
  | nil => rfl
  | cons single rest ih => cases h : single.name? <;> simp [h, ih]

mutual

theorem performs_lowerTarget (target : Python.Expr) :
    Performs target.effects (lowerTarget names target) := by
  cases target with
  | tuple items => exact .map (performs_lowerTargets items) _
  | list items => exact .map (performs_lowerTargets items) _
  | starred value => exact .silent (performs_warn _ _) fun _ => performs_lowerTarget value
  | _ => exact performs_lowerExpr names _

theorem performs_lowerTargets :
    ∀ targets : List Python.Expr, Performs (effectsList targets) (lowerTargets names targets)
  | [] => .pure _
  | target :: rest => .bind (performs_lowerTarget target) fun _ =>
      .map (performs_lowerTargets rest) _

end

end PythonToCSharp.Lowering
