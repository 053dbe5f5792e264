import PythonToCSharp.Lowering.Definition

/-!
What the steps that lower expressions and patterns are composed of: they read the state, report
findings, record names and generate names, and do nothing else. What holds of these few steps and
carries over from one step to the next holds of the lowering of every expression and every pattern,
and of most statements without blocks.
-/

namespace PythonToCSharp.Lowering

open CSharp (escapeIdentifier)

/-- The step is composed of those that expressions and patterns need. -/
inductive Composed : {α : Type} → Render α → Prop where
  | pure {α : Type} (a : α) : Composed (Pure.pure a)
  | bind {α β : Type} {x : Render α} {f : α → Render β} (hx : Composed x)
    (hf : ∀ a, Composed (f a)) : Composed (x >>= f)
  | get : Composed MonadState.get
  | report (severity : Severity) (kind : String) (span : Python.Span) (message : String) :
    Composed (report severity kind span message)
  | record (name : String) : Composed (modifyFrame (·.record name))
  | fresh (base : String) : Composed (fresh base)

namespace Composed

variable {α β : Type}

theorem map {x : Render α} (hx : Composed x) (f : α → β) : Composed (do return f (← x)) :=
  bind hx fun _ => pure _

theorem ite {c : Prop} [Decidable c] {x y : Render α} (hx : Composed x) (hy : Composed y) :
    Composed (if c then x else y) := by
  split
  · exact hx
  · exact hy

theorem warn (kind message : String) : Composed (Lowering.warn kind message) :=
  bind get fun _ => report _ _ _ _

theorem note (kind message : String) : Composed (Lowering.note kind message) :=
  bind get fun _ => report _ _ _ _

theorem receiver : Composed Lowering.receiver :=
  map get _

theorem currentFrame : Composed Lowering.currentFrame :=
  map get _

/-- Findings are only added, behind those that are there. -/
theorem diagnostics_grow {x : Render α} (h : Composed x) (s : State) :
    s.diagnostics <+: (x s).2.diagnostics := by
  induction h generalizing s with
  | bind _ _ ihx ihf => exact (ihx s).trans (ihf _ _)
  | report severity kind span message => exact List.prefix_append _ _
  | _ => exact List.prefix_refl _

end Composed

/-! ## Expressions -/

theorem composed_lowerName (id : String) : Composed (lowerName id) :=
  .bind .receiver fun _ => .ite (.pure _) (.pure _)

theorem Composed.infixed {op : CSharp.BinaryOp} {left right : Render CSharp.Expr}
    (hl : Composed left) (hr : Composed right) : Composed (infixed op left right) :=
  .bind hl fun _ => .bind hr fun _ => .pure _

theorem Composed.sameObject {left right : Render CSharp.Expr} (hl : Composed left)
    (hr : Composed right) : Composed (sameObject left right) :=
  .bind hl fun _ => .bind hr fun _ => .pure _

theorem Composed.contained {item container : Render CSharp.Expr} (hi : Composed item)
    (hc : Composed container) : Composed (contained item container) :=
  .bind hc fun _ => .bind hi fun _ => .pure _

theorem Composed.compared {left right : Render CSharp.Expr} (hl : Composed left)
    (hr : Composed right) (op : Python.CmpOp) (withNone : Bool) :
    Composed (compared op withNone left right) := by
  cases op with
  | is => exact .ite (.infixed hl hr) (.sameObject hl hr)
  | isNot => exact .ite (.infixed hl hr) (.map (.sameObject hl hr) _)
  | isIn => exact .contained hl hr
  | notIn => exact .map (.contained hl hr) _
  | _ => exact .infixed hl hr

theorem composed_lowerLambdaParams :
    ∀ params : List Python.Param, Composed (lowerLambdaParams params)
  | [] => .pure _
  | param :: rest => by
    have hr : Composed (do return escapeIdentifier param.name :: (← lowerLambdaParams rest)) :=
      .map (composed_lowerLambdaParams rest) _
    unfold lowerLambdaParams
    split
    · exact .bind (.warn _ _) fun _ => hr
    · exact hr

variable (names : LibraryNames)

mutual

theorem composed_lowerExpr : ∀ e : Python.Expr, Composed (lowerExpr names e)
  | .name id => composed_lowerName id
  | .int _ => .pure _
  | .float _ => .pure _
  | .imaginary _ => .pure _
  | .str _ => .pure _
  | .fstring parts raw => .map (composed_lowerParts raw parts) _
  | .bool _ => .pure _
  | .none => .pure _
  | .ellipsis => .bind (.warn _ _) fun _ => .pure _
  | .binary left _ right =>
    .bind (composed_lowerExpr left) fun _ => .map (composed_lowerExpr right) _
  | .unary _ operand => .map (composed_lowerExpr operand) _
  | .boolean _ left right => .infixed (composed_lowerExpr left) (composed_lowerExpr right)
  | .compare left comparisons =>
    .map (composed_lowerComparisons (composed_lowerExpr left) comparisons) _
  | .ifExp test body orelse =>
    .bind (composed_lowerExpr test) fun _ => .bind (composed_lowerExpr body) fun _ =>
      .map (composed_lowerExpr orelse) _
  | .lambda params body =>
    .bind (composed_lowerLambdaParams params) fun _ => .map (composed_lowerExpr body) _
  | .named target value =>
    .bind (.record target) fun _ =>
      .bind (composed_lowerName target) fun _ => .map (composed_lowerExpr value) _
  | .attribute value _ => .map (composed_lowerExpr value) _
  | .subscript value index =>
    .bind (composed_lowerExpr value) fun _ => .map (composed_lowerList index) _
  | .slice lower upper step =>
    .bind (composed_lowerOption lower) fun _ => .bind (composed_lowerOption upper) fun _ =>
      .map (composed_lowerOption step) _
  | .call func args =>
    .bind (composed_lowerExpr func) fun _ => .map (composed_lowerArgs args) _
  | .list items => .map (composed_lowerList items) _
  | .set items => .map (composed_lowerList items) _
  | .tuple items => .map (composed_lowerList items) _
  | .dict items => .map (composed_lowerItems items) _
  | .comprehension kind element value clauses => by
    refine .bind (composed_lowerClauses clauses) fun _ => ?_
    refine .bind (composed_lowerExpr element) fun _ => ?_
    cases kind with
    | dict => exact .map (composed_lowerOption value) _
    | _ => exact .pure _
  | .await value => .map (composed_lowerExpr value) _
  | .yield value => .bind (.warn _ _) fun _ => .map (composed_lowerOption value) _
  | .yieldFrom value => .bind (.warn _ _) fun _ => .map (composed_lowerExpr value) _
  | .starred value => .bind (.warn _ _) fun _ => .map (composed_lowerExpr value) _
  | .unsupported _ _ _ => .bind (.report _ _ _ _) fun _ => .pure _

theorem composed_lowerList : ∀ items : List Python.Expr, Composed (lowerList names items)
  | [] => .pure _
  | e :: rest => .bind (composed_lowerExpr e) fun _ => .map (composed_lowerList rest) _

theorem composed_lowerOption : ∀ e : Option Python.Expr, Composed (lowerOption names e)
  | none => .pure _
  | some e => .map (composed_lowerExpr e) _

theorem composed_lowerComparisons {left : Render CSharp.Expr} (hl : Composed left) :
    ∀ links : List (Python.CmpOp × Python.Expr), Composed (lowerComparisons names left links)
  | [] => .pure _
  | (op, right) :: rest =>
    .bind (.compared hl (composed_lowerExpr right) op _) fun _ =>
      .map (composed_lowerComparisons (composed_lowerExpr right) rest) _

theorem composed_lowerParts (raw : Bool) :
    ∀ parts : List Python.FStringPart, Composed (lowerParts names raw parts)
  | [] => .pure _
  | .literal _ :: rest => .map (composed_lowerParts raw rest) _
  | .interpolation e _ :: rest =>
    .bind (composed_lowerExpr e) fun _ => .map (composed_lowerParts raw rest) _

theorem composed_lowerArgs : ∀ args : List Python.Arg, Composed (lowerArgs names args)
  | [] => .pure _
  | .positional value :: rest =>
    .bind (composed_lowerExpr value) fun _ => .map (composed_lowerArgs rest) _
  | .keyword _ value :: rest =>
    .bind (composed_lowerExpr value) fun _ => .map (composed_lowerArgs rest) _
  | .star value :: rest =>
    .bind (composed_lowerExpr value) fun _ => .map (composed_lowerArgs rest) _
  | .doubleStar value :: rest =>
    .bind (.warn _ _) fun _ => .bind (composed_lowerExpr value) fun _ =>
      .map (composed_lowerArgs rest) _

theorem composed_lowerItems : ∀ items : List Python.DictItem, Composed (lowerItems names items)
  | [] => .pure _
  | .pair key value :: rest =>
    .bind (composed_lowerExpr key) fun _ => .bind (composed_lowerExpr value) fun _ =>
      .map (composed_lowerItems rest) _
  | .splat value :: rest =>
    .bind (.warn _ _) fun _ => .bind (composed_lowerExpr value) fun _ =>
      .map (composed_lowerItems rest) _

theorem composed_lowerClauses :
    ∀ clauses : List Python.Clause, Composed (lowerClauses names clauses)
  | [] => .pure _
  | .forIn target iter :: rest => by
    have hi := composed_lowerExpr iter
    have hr := composed_lowerClauses rest
    have ht := composed_lowerExpr target
    cases target with
    | tuple targets =>
      exact .bind hi fun _ => .bind (.fresh _) fun _ =>
        .bind (composed_lowerList targets) fun _ => .map hr _
    | list targets =>
      exact .bind hi fun _ => .bind (.fresh _) fun _ =>
        .bind (composed_lowerList targets) fun _ => .map hr _
    | _ => exact .bind hi fun _ => .bind ht fun _ => .map hr _
  | .onlyIf test :: rest =>
    .bind (composed_lowerExpr test) fun _ => .map (composed_lowerClauses rest) _

end

/-! ## Patterns -/

theorem Composed.namedPattern {lowered : Render CSharp.Pattern} (h : Composed lowered)
    (pattern : Python.Pattern) (name : String) : Composed (namedPattern pattern lowered name) := by
  cases pattern with
  | wildcard => exact .pure _
  | _ => exact .map h _

mutual

theorem composed_lowerPattern : ∀ pattern : Python.Pattern, Composed (lowerPattern names pattern)
  | .wildcard => .pure _
  | .capture _ => .pure _
  | .literal value => .map (composed_lowerExpr names value) _
  | .value _ => .pure _
  | .sequence items => .map (composed_lowerPatterns items) _
  | .star _ => .pure _
  | .mapping items _ => .bind (.warn _ _) fun _ => .map (composed_lowerEntries items) _
  | .classPattern _ positional keywords =>
    .bind (composed_lowerPatterns positional) fun _ =>
      .map (composed_lowerKeywords keywords) _
  | .either alternatives => .map (composed_lowerPatterns alternatives) _
  | .asName pattern name => .namedPattern (composed_lowerPattern pattern) pattern name
  | .unsupported _ _ _ => .bind (.report _ _ _ _) fun _ => .pure _

theorem composed_lowerPatterns :
    ∀ patterns : List Python.Pattern, Composed (lowerPatterns names patterns)
  | [] => .pure _
  | p :: rest => .bind (composed_lowerPattern p) fun _ => .map (composed_lowerPatterns rest) _

theorem composed_lowerEntries :
    ∀ entries : List (Python.Pattern × Python.Pattern), Composed (lowerEntries names entries)
  | [] => .pure _
  | (key, value) :: rest =>
    .bind (composed_lowerPattern key) fun _ => .bind (composed_lowerPattern value) fun _ =>
      .map (composed_lowerEntries rest) _

theorem composed_lowerKeywords :
    ∀ keywords : List (String × Python.Pattern), Composed (lowerKeywords names keywords)
  | [] => .pure _
  | (_, p) :: rest => .bind (composed_lowerPattern p) fun _ => .map (composed_lowerKeywords rest) _

end

theorem composed_lowerCasePattern (tupleSubject : Bool) (pattern : Python.Pattern) :
    Composed (lowerCasePattern names tupleSubject pattern) := by
  unfold lowerCasePattern
  split
  · exact .ite (.map (composed_lowerPatterns names _) _) (composed_lowerPattern names _)
  · exact composed_lowerPattern names pattern

/-! ## Statements without blocks -/

mutual

theorem composed_lowerTarget (target : Python.Expr) : Composed (lowerTarget names target) := by
  cases target with
  | tuple items => exact .map (composed_lowerTargets items) _
  | list items => exact .map (composed_lowerTargets items) _
  | starred value => exact .bind (.warn _ _) fun _ => composed_lowerTarget value
  | _ => exact composed_lowerExpr names _

theorem composed_lowerTargets : ∀ targets : List Python.Expr, Composed (lowerTargets names targets)
  | [] => .pure _
  | target :: rest => .bind (composed_lowerTarget target) fun _ =>
      .map (composed_lowerTargets rest) _

end

theorem composed_lowerExprStmt (value : Python.Expr) : Composed (lowerExprStmt names value) := by
  unfold lowerExprStmt
  split
  · exact .pure _
  · exact .pure _
  · exact .pure _
  · exact .map (composed_lowerExpr names _) _
  · exact .bind (.fresh _) fun _ => .map (composed_lowerExpr names _) _
  · exact .map (composed_lowerExpr names _) _

theorem composed_lowerAugAssign (target : Python.Expr) (op : Python.BinaryOp)
    (value : Python.Expr) : Composed (lowerAugAssign names target op value) :=
  .bind (composed_lowerExpr names target) fun _ => .map (composed_lowerExpr names value) _

theorem composed_lowerBreak : Composed lowerBreak := by
  refine .bind .currentFrame fun frame => ?_
  split
  · exact .pure _
  · exact .bind (.warn _ _) fun _ => .pure _
  · exact .pure _

theorem composed_lowerReturn (value : Option Python.Expr) : Composed (lowerReturn names value) := by
  refine .bind .currentFrame fun frame => ?_
  split
  · split
    · exact .bind (.warn _ _) fun _ => .pure _
    · exact .pure _
  · exact .map (composed_lowerOption names value) _

theorem composed_lowerException (exc : Python.Expr) : Composed (lowerException names exc) := by
  unfold lowerException
  split
  · exact .ite (.map (composed_lowerName _) _) (composed_lowerName _)
  · exact .bind (composed_lowerExpr names _) fun _ => .map (composed_lowerArgs names _) _
  · exact composed_lowerExpr names exc

theorem composed_lowerRaise (exc cause : Option Python.Expr) :
    Composed (lowerRaise names exc cause) := by
  have hthrow (exc : Python.Expr) :
      Composed (do return [.throw_ (some (← lowerException names exc))] : Render Block) :=
    .map (composed_lowerException names exc) _
  cases exc with
  | none =>
    cases cause with
    | none => exact .pure _
    | some _ => exact .bind (.note _ _) fun _ => .pure _
  | some exc =>
    cases cause with
    | none => exact hthrow exc
    | some _ => exact .bind (.note _ _) fun _ => hthrow exc

mutual

theorem composed_lowerDelete (target : Python.Expr) : Composed (lowerDelete names target) := by
  cases target with
  | subscript value index =>
    exact .bind (.note _ _) fun _ => .bind (composed_lowerExpr names value) fun _ =>
      .map (composed_lowerList names index) _
  | tuple items => exact composed_lowerDeletes items
  | list items => exact composed_lowerDeletes items
  | _ => exact .map (composed_lowerExpr names _) _

theorem composed_lowerDeletes : ∀ targets : List Python.Expr, Composed (lowerDeletes names targets)
  | [] => .pure _
  | target :: rest => .bind (composed_lowerDelete target) fun _ =>
      .map (composed_lowerDeletes rest) _

end

theorem composed_lowerAssert (test : Python.Expr) (msg : Option Python.Expr) :
    Composed (lowerAssert names test msg) :=
  .bind (composed_lowerExpr names test) fun _ => .map (composed_lowerOption names msg) _

theorem composed_lowerUnsupported (kind text : String) : Composed (lowerUnsupported kind text) :=
  .bind (.warn _ _) fun _ => .pure _

/-! ## Heads of clauses and definitions -/

theorem composed_lowerCaught (types : List Python.Expr) (name : Option String) :
    Composed (lowerCaught names types name) := by
  unfold lowerCaught
  split
  · exact .pure _
  · exact .pure _
  · exact .map (composed_lowerExpr names _) _
  · exact .map (composed_lowerList names _) _
  · exact .bind (.fresh _) fun _ => .map (composed_lowerList names _) _

theorem composed_lowerLabel (tupleSubject : Bool) (pattern : Python.Pattern)
    (guard : Option Python.Expr) : Composed (lowerLabel names tupleSubject pattern guard) := by
  refine .bind (composed_lowerOption names guard) fun guard => ?_
  split
  · exact .pure _
  · exact .pure _
  · exact .map (composed_lowerCasePattern names tupleSubject _) _

theorem composed_lowerDecorators (decorators : List Python.Expr) :
    Composed (lowerDecorators names decorators) := by
  induction decorators with
  | nil => exact .pure _
  | cons decorator rest ih =>
    exact .bind (composed_lowerExpr names decorator) fun _ => .bind (.warn _ _) fun _ => .map ih _

theorem composed_lowerParams (params : List Python.Param) :
    Composed (lowerParams names params) := by
  induction params with
  | nil => exact .pure _
  | cons param rest ih =>
    refine .bind ?_ fun _ => .map ih _
    unfold lowerParam
    split
    · exact .map (composed_lowerOption names _) _
    · exact .pure _
    · exact .pure _

theorem composed_lowerBases (className : String) (bases : List Python.Arg) :
    Composed (lowerBases names className bases) := by
  induction bases with
  | nil => exact .pure _
  | cons arg rest hr =>
    cases arg with
    | positional base =>
      have hb : Composed (do
          let base ← lowerExpr names base
          return base :: (← lowerBases names className rest)) :=
        .bind (composed_lowerExpr names base) fun _ => .map hr _
      cases base with
      | name id => exact .ite hr (.bind (composed_lowerName id) fun _ => .map hr _)
      | _ => exact hb
    | keyword name value => exact .bind (.warn _ _) fun _ => hr
    | star value => exact .bind (.warn _ _) fun _ => hr
    | doubleStar value => exact .bind (.warn _ _) fun _ => hr

end PythonToCSharp.Lowering
