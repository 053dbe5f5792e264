import PythonToCSharp.Proofs.Execution.Emitted

/-!
Plain bodies: assignments of pure expressions to names, conditionals and loops. Which lines their
simple statements become, and which variables they have.
-/

namespace PythonToCSharp.Lowering

open CSharp (escapeIdentifier isIdentifier)

/-! ## Pure expressions -/

/-- Whether an expression does something besides giving a value. -/
def hasEffect : Python.Expr → Bool
  | .named _ _ | .call _ _ => true
  | _ => false

/-- Operator expressions without assignments and calls in them. -/
structure IsPure (e : Python.Expr) : Prop where
  operators : OperatorExpr e
  effectless : e.any hasEffect = false

/-- A pure expression binds no names. -/
theorem IsPure.binds_nothing {e : Python.Expr} (h : IsPure e) :
    ∀ sub ∈ e.subexprs, sub.namedTarget? = none := by
  intro sub hsub
  have hnone : hasEffect sub = false := by
    have hall := h.effectless
    rw [Python.Expr.any, List.any_eq_false] at hall
    exact Bool.eq_false_iff.2 (hall sub hsub)
  cases sub with
  | named target value => cases hnone
  | _ => rfl

/-- Lowering a pure expression makes its tree. -/
theorem IsPure.lowered {names : LibraryNames} {self : Option String} {e : Python.Expr}
    (h : IsPure e)
    {lowered : CSharp.Expr} (hl : LowersExpr names self e lowered) :
    lowered = tree names self e := by
  obtain ⟨s, hs, rfl⟩ := hl
  exact (yields_lowerExpr h.operators s hs).1

/-! ## The statements -/

/-- Assignments of pure expressions to names, and `pass`. -/
inductive PlainStatement : Python.StmtKind → Prop where
  | assign {ids : List String} {value : Python.Expr} (hn : ids ≠ [])
      (hi : ∀ id ∈ ids, isIdentifier id.toList = true) (hv : IsPure value) :
      PlainStatement (.assign (ids.map .name) value)
  | pass : PlainStatement .passStmt

/-- A name that goes through a list display of pure expressions. -/
inductive PlainLoop : Python.Expr → Python.Expr → Prop where
  | intro {id : String} {items : List Python.Expr} (hi : isIdentifier id.toList = true)
      (hp : ∀ item ∈ items, IsPure item) : PlainLoop (.name id) (.list items)

/-- Bodies of assignments and `pass`, of `if`, `while`, `for`, `break` and `continue`. -/
def loopFragment : Fragment where
  simple := PlainStatement
  test := IsPure
  loop := PlainLoop
  tries := False

/-! ## Their lines -/

theorem Yields.recordNames {self : Option String} (ids : List String) :
    Yields self ((ids.map Python.Expr.name).forM recordTarget) ⟨⟩ := by
  induction ids with
  | nil => exact .pure _
  | cons id rest ih => exact .bind (.bind (.record id) (.pure _)) ih

theorem yields_lowerTargets (names : LibraryNames) {self : Option String} (ids : List String) :
    Yields self (lowerTargets names (ids.map .name))
      (ids.map fun id => .name (spelling self id)) := by
  induction ids with
  | nil => exact .pure _
  | cons id rest ih => exact .bind (.lowerName id) (.map ih _)

/-- The first name takes the value, the others take it from there. -/
theorem lowersKind_assign {names : LibraryNames} {id : String} {rest : List String}
    {value : Python.Expr} (hv : IsPure value) {lines : Block}
    (h : LowersKind names none (.assign ((id :: rest).map .name) value) lines) :
    lines = .assign (.name (escapeIdentifier id)) (tree names none value) ::
      rest.map fun other => .assign (.name (escapeIdentifier other))
        (.name (escapeIdentifier id)) := by
  obtain ⟨s, after, hs, hrun⟩ := h
  have hyields : Yields none (lowerAssign names ((id :: rest).map .name) value)
      (.assign (.name (spelling none id)) (tree names none value) ::
        (rest.map fun other => .name (spelling none other)).map fun target =>
          .assign target (.name (spelling none id))) :=
    .bind (.recordNames _) (.bind (yields_lowerExpr hv.operators)
      (.bind (yields_lowerTargets names (id :: rest)) (.pure _)))
  have heq : lowerAssign names ((id :: rest).map .name) value s = (lines, after) :=
    Except.ok.inj hrun
  have hlines := (hyields s hs).1
  rw [heq, List.map_map] at hlines
  exact hlines

theorem lowersExpr_list {names : LibraryNames} {items : List Python.Expr}
    (hp : ∀ e ∈ items, IsPure e)
    {iter' : CSharp.Expr} (h : LowersExpr names none (.list items) iter') :
    iter' = .collection names.listType (items.map (tree names none)) := by
  obtain ⟨s, hs, rfl⟩ := h
  have hyields : Yields none (lowerExpr names (.list items))
      (.collection names.listType (trees names none items)) :=
    .map (yields_lowerList fun e he => yields_lowerExpr (hp e he).operators) _
  rw [(hyields s hs).1, trees_eq_map]

theorem lowersTarget_name {names : LibraryNames} {id : String} {target' : CSharp.Expr}
    (h : LowersTarget names none (.name id) target') :
    target' = .name (escapeIdentifier id) := by
  obtain ⟨s, hs, rfl⟩ := h
  have hyields : Yields none (lowerTarget names (.name id)) (.name (spelling none id)) :=
    .lowerName id
  exact (hyields s hs).1

/-! ## Their variables -/

theorem plain_isSimple {kind : Python.StmtKind} (h : PlainStatement kind) :
    kind.isSimple = true := by
  cases h <;> rfl

/-- What is reached from statements that are built from the fragment is built from it. -/
theorem builds_reached {block : List Python.Stmt} (h : ∀ s ∈ block, loopFragment.Builds s.kind)
    (hinner : ∀ s ∈ block, ∀ inner ∈ s.kind.blocks, ∀ t ∈ Python.reachedBlock false inner,
      loopFragment.Builds t.kind) :
    ∀ s ∈ Python.reachedBlock false block, loopFragment.Builds s.kind := by
  intro s hs
  rw [Python.reachedBlock_eq] at hs
  obtain ⟨⟨kind, span⟩, hmem, hs⟩ := List.mem_flatMap.1 hs
  rw [Python.reached_eq] at hs
  rcases List.mem_cons.1 hs with rfl | hs
  · exact h _ hmem
  · -- the statement stands in a block of one of them
    obtain ⟨inner, hin, hs⟩ := List.mem_flatMap.1 hs
    exact hinner _ hmem inner hin s hs

theorem builds_inner {kind : Python.StmtKind} (h : loopFragment.Builds kind) :
    ∀ block ∈ kind.blocks, ∀ s ∈ Python.reachedBlock false block, loopFragment.Builds s.kind := by
  induction h with
  | simple h =>
    cases h with
    | assign => exact nofun
    | pass => exact nofun
  | break_ => exact nofun
  | continue_ => exact nofun
  | ifChain _ _ hb ho ihb iho =>
    intro block hblock
    rcases List.mem_append.1 hblock with hin | hin
    · obtain ⟨branch, hbranch, rfl⟩ := List.mem_map.1 hin
      exact builds_reached (hb branch hbranch) (ihb branch hbranch)
    · have horelse := Option.mem_toList.1 hin
      exact builds_reached (ho block horelse) (iho block horelse)
  | whileLoop _ hb ho ihb iho =>
    intro block hblock
    rcases List.mem_cons.1 hblock with rfl | hin
    · exact builds_reached hb ihb
    · have horelse := Option.mem_toList.1 hin
      exact builds_reached (ho block horelse) (iho block horelse)
  | forLoop _ hb ho ihb iho =>
    intro block hblock
    rcases List.mem_cons.1 hblock with rfl | hin
    · exact builds_reached hb ihb
    · have horelse := Option.mem_toList.1 hin
      exact builds_reached (ho block horelse) (iho block horelse)
  | tryBlock ht => cases ht

theorem isIdentifier_boundByForm {kind : Python.StmtKind} (h : loopFragment.Builds kind) :
    ∀ id ∈ kind.boundByForm, isIdentifier id.toList = true := by
  cases h with
  | simple h =>
    cases h with
    | pass => exact nofun
    | assign _ hi _ =>
      intro id hid
      obtain ⟨target, ht, hid⟩ := List.mem_flatMap.1 hid
      obtain ⟨other, ho, rfl⟩ := List.mem_map.1 ht
      obtain rfl := List.mem_singleton.1 hid
      exact hi _ ho
  | forLoop hl =>
    obtain ⟨hi, -⟩ := hl
    intro id hid
    obtain rfl := List.mem_singleton.1 hid
    exact hi
  | tryBlock ht => cases ht
  | _ => exact nofun

theorem name_binds_nothing (id : String) :
    ∀ sub ∈ (Python.Expr.name id).subexprs, sub.namedTarget? = none := by
  intro sub hsub
  obtain rfl := List.mem_singleton.1 hsub
  rfl

/-- The expressions of the statements bind no names. -/
theorem exprs_bind_nothing {kind : Python.StmtKind} (h : loopFragment.Builds kind) :
    ∀ e ∈ kind.exprs, ∀ sub ∈ e.subexprs, sub.namedTarget? = none := by
  cases h with
  | simple h =>
    cases h with
    | pass => exact nofun
    | assign _ _ hv =>
      intro e he
      rcases List.mem_append.1 he with ht | hvalue
      · obtain ⟨id, -, rfl⟩ := List.mem_map.1 ht
        exact name_binds_nothing id
      · obtain rfl := List.mem_singleton.1 hvalue
        exact hv.binds_nothing
  | ifChain _ ht =>
    intro e he
    obtain ⟨branch, hbranch, rfl⟩ := List.mem_map.1 he
    exact (ht branch hbranch).binds_nothing
  | whileLoop ht =>
    intro e he
    obtain rfl := List.mem_singleton.1 he
    exact ht.binds_nothing
  | forLoop hl =>
    obtain ⟨-, hp⟩ := hl
    intro e he
    rcases List.mem_cons.1 he with rfl | he
    · exact name_binds_nothing _
    · obtain rfl := List.mem_singleton.1 he
      intro sub hsub
      rw [Python.Expr.subexprs_eq] at hsub
      rcases List.mem_cons.1 hsub with rfl | hsub
      · rfl
      · obtain ⟨item, hitem, hsub⟩ := List.mem_flatMap.1 hsub
        exact (hp item hitem).binds_nothing sub hsub
  | tryBlock ht => cases ht
  | _ => exact nofun

theorem isIdentifier_boundIn {body : List Python.Stmt}
    (h : ∀ s ∈ body, loopFragment.Builds s.kind) :
    ∀ id ∈ Python.boundIn body, isIdentifier id.toList = true := by
  intro id hid
  obtain ⟨s, hs, hid⟩ := List.mem_flatMap.1 hid
  have hbuilds := builds_reached h (fun s hs => builds_inner (h s hs)) s hs
  rcases List.mem_append.1 hid with hform | hnamed
  · exact isIdentifier_boundByForm hbuilds id hform
  · obtain ⟨e, he, hnamed⟩ := List.mem_flatMap.1 hnamed
    obtain ⟨sub, hsub, htarget⟩ := List.mem_filterMap.1 hnamed
    rw [exprs_bind_nothing hbuilds e he sub hsub] at htarget
    cases htarget

end PythonToCSharp.Lowering
