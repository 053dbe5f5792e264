import PythonToCSharp.Proofs.Execution.Determinism
import PythonToCSharp.Proofs.Execution.PlainBody

/-!
Runtimes. What operators give and which values count as true belongs to the library that the emitted
code runs with. A runtime holds both, for the two sides, and takes for granted that a pure
expression has the value that its tree has.

With a runtime, the assignments and conditions of the source have a meaning, and there is a machine
for the emitted ones.
-/

namespace PythonToCSharp.Lowering

open CSharp (escapeIdentifier isIdentifier)

/-! ## Stores -/

/-- Identifiers stay apart when they are escaped. -/
theorem escapeIdentifier_injective {a b : String} (ha : isIdentifier a.toList = true)
    (hb : isIdentifier b.toList = true) (h : escapeIdentifier a = escapeIdentifier b) : a = b := by
  -- an identifier does not begin with an at sign
  have hat {id other : String} (hi : isIdentifier id.toList = true) : "@" ++ other ≠ id := by
    rintro rfl
    rw [String.toList_append] at hi
    exact absurd hi (by simp [isIdentifier, show CSharp.isWordChar '@' = false by decide])
  unfold escapeIdentifier at h
  split at h
  · split at h
    · exact (String.append_right_inj _).1 h
    · exact absurd h (hat hb)
  · split at h
    · exact absurd h.symm (hat ha)
    · exact h

/-- The emitted code holds the values that the variables of the source have, and for those without a
value what it has held from the start. -/
structure Matches {Value : Type} (reserved : List String)
    (start source state : Store Value) : Prop where
  bound : ∀ id value, source id = some value → id ∈ reserved ∧ isIdentifier id.toList = true
  value : ∀ id ∈ reserved, isIdentifier id.toList = true →
    state (escapeIdentifier id) = (source id).or (start (escapeIdentifier id))

namespace Matches

variable {Value : Type} {reserved : List String} {start source state : Store Value}

theorem refl (reserved : List String) (start : Store Value) :
    Matches reserved start (fun _ => none) start :=
  ⟨nofun, fun _ _ _ => rfl⟩

theorem read (h : Matches reserved start source state) {id : String} {v : Value}
    (hv : source id = some v) : state (escapeIdentifier id) = some v := by
  obtain ⟨hr, hi⟩ := h.bound id v hv
  rw [h.value id hr hi, hv]
  rfl

/-- A variable of the source takes a value on both sides. -/
theorem assign (h : Matches reserved start source state) {id : String} (hr : id ∈ reserved)
    (hi : isIdentifier id.toList = true) (v : Value) :
    Matches reserved start (source.set id v) (state.set (escapeIdentifier id) v) where
  bound other value hv := by
    by_cases heq : other = id
    · rw [heq]
      exact ⟨hr, hi⟩
    · rw [source.set_ne heq] at hv
      exact h.bound other value hv
  value other ho hother := by
    by_cases heq : other = id
    · rw [heq, source.set_self, state.set_self]
      rfl
    · have hne : escapeIdentifier other ≠ escapeIdentifier id :=
        fun he => heq (escapeIdentifier_injective hother hi he)
      rw [source.set_ne heq, state.set_ne hne]
      exact h.value other ho hother

/-- What the emitted code holds besides does not matter. -/
theorem hide (h : Matches reserved start source state) {x : String}
    (hx : ∀ id ∈ reserved, escapeIdentifier id ≠ x) (v : Value) :
    Matches reserved start source (state.set x v) where
  bound := h.bound
  value id hid hi := by
    rw [state.set_ne (hx id hid)]
    exact h.value id hid hi

end Matches

/-! ## What decides a condition alone -/

theorem decider?_not (e : CSharp.Expr) : (CSharp.Expr.unary .not e).decider? = e.name? := by
  cases e <;> rfl

theorem decider?_linkTree (l r : CSharp.Expr) (withNone : Bool) (op : Python.CmpOp) :
    (linkTree l r withNone op).decider? = none := by
  cases op <;> cases withNone <;> rfl

theorem decider?_chainTree (names : LibraryNames) (self : Option String) {before : CSharp.Expr}
    (h : before.decider? = none) (left : CSharp.Expr) (links : List (Python.CmpOp × Python.Expr)) :
    (chainTree names self before left links).decider? = none := by
  induction links generalizing before left with
  | nil => exact h
  | cons link rest ih => exact ih rfl _

/-- A condition that one variable decides is that variable or its negation. -/
theorem decider?_tree {names : LibraryNames} {e : Python.Expr} (he : OperatorExpr e) {x : String}
    (h : (tree names none e).decider? = some x) :
    ∃ id, x = escapeIdentifier id ∧ (e = .name id ∨ e = .unary .not (.name id)) := by
  have hspelling (id : String) : spelling none id = escapeIdentifier id := if_neg nofun
  cases he with
  | @name id _ => exact ⟨id, (Option.some.inj h).symm.trans (hspelling id), .inl rfl⟩
  | @unary operand op ho =>
    cases op with
    | not =>
      -- only names are lowered to names
      have hlowered : (lowerExpr names operand {}).1 = tree names none operand :=
        (yields_lowerExpr ho {} rfl).1
      have hname := Body.name?_lowerExpr names {} operand
      rw [tree, decider?_not] at h
      rw [hlowered, h] at hname
      obtain ⟨id, hid, hx⟩ := Option.map_eq_some_iff.1 hname.symm
      cases operand with
      | name other =>
        cases hid
        exact ⟨id, hx.symm.trans (hspelling id), .inr rfl⟩
      | _ => cases hid
    | _ => cases h
  | binary op hl hr => cases op <;> cases h
  | boolean op hl hr => cases op <;> cases h
  | @compare left links _ hn _ =>
    obtain ⟨⟨op, right⟩, rest, rfl⟩ := List.exists_cons_of_ne_nil hn
    rw [tree, decider?_chainTree names none (decider?_linkTree _ _ _ op)] at h
    cases h
  | _ => cases h

/-! ## Runtimes -/

/-- The values of pure expressions on both sides, and which of them count as true. -/
structure Runtime (names : LibraryNames) where
  Value : Type
  truth : Value → Option Bool
  /-- The value of an expression of the source, if it has one. -/
  python : Python.Expr → Store Value → Option Value
  /-- The value of a C# expression, if it has one. -/
  csharp : CSharp.Expr → Store Value → Option Value
  /-- An unassigned variable has no value, and neither has its negation. -/
  python_name : ∀ id store, python (.name id) store = store id
  python_not : ∀ id store, (python (.unary .not (.name id)) store).isSome = true →
    (store id).isSome = true
  csharp_name : ∀ name store, csharp (.name name) store = store name
  /-- What has a value in the source has it in the emitted code too. -/
  agree : ∀ {e : Python.Expr} {before after : Store Value} {value : Value}, IsPure e →
    (∀ id v, before id = some v → after (escapeIdentifier id) = some v) →
      python e before = some value → csharp (tree names none e) after = some value

namespace Runtime

variable {names : LibraryNames} (R : Runtime names)

/-! ### The source -/

/-- A target takes a value. -/
def assignTo (value : R.Value) (store : Store R.Value) : Python.Expr → Option (Store R.Value)
  | .name id => some (store.set id value)
  | _ => none

/-- What an assignment does; nothing is done by `pass`. -/
def perform (store : Store R.Value) : Python.StmtKind → Option (Store R.Value)
  | .passStmt => some store
  | .assign targets value => do
    let result ← R.python value store
    targets.foldlM (R.assignTo result) store
  | _ => none

/-- The elements of a list display. -/
def display (store : Store R.Value) : Python.Expr → Option (List R.Value)
  | .list items => items.mapM fun item => R.python item store
  | _ => none

/-- What the statements of the source mean. Nothing is raised: a run that would raise does not end.
-/
def meaning : Python.Meaning where
  State := Store R.Value
  Value := R.Value
  Fault := Empty
  Event := Empty
  simple kind s tr o s' := R.perform s kind = some s' ∧ tr = [] ∧ o = .normal
  test e s tr result s' := ∃ value, (R.python e s).bind R.truth = some value ∧ result = .ok value ∧
    tr = [] ∧ s' = s
  elements iter s result s' := ∃ values, R.display s iter = some values ∧ result =
    .ok values ∧ s' = s
  bind target value s s' := R.assignTo value s target = some s'
  takes _ _ _ _ := False
  whileElseOpen := False

/-! ### The emitted code -/

/-- What a line does. -/
def effect (store : Store R.Value) : CSharp.Stmt → Option (Store R.Value)
  | .empty => some store
  | .assign (.name name) value => (R.csharp value store).map (store.set name)
  | _ => none

/-- The elements of a new collection. -/
def collected (store : Store R.Value) : CSharp.Expr → Option (List R.Value)
  | .collection _ items => items.mapM fun item => R.csharp item store
  | _ => none

/-- What the emitted lines do. -/
def machine : CSharp.Machine where
  State := Store R.Value
  Value := R.Value
  Fault := Empty
  runs line s fault s' := R.effect s line = some s' ∧ fault = none
  tests e s result s' := ∃ value, (R.csharp e s).bind R.truth = some value ∧ result =
    .ok value ∧ s' = s
  elements iter s result s' := ∃ values, R.collected s iter = some values ∧ result =
    .ok values ∧ s' = s
  bind name value s := s.set name value
  catches _ _ _ := none

theorem machine_deterministic : R.machine.Deterministic where
  runs := by
    rintro s state fault fault' after after' ⟨h, rfl⟩ ⟨h', rfl⟩
    exact ⟨rfl, Option.some.inj (h'.symm.trans h)⟩
  tests := by
    rintro e state result result' after after' ⟨value, h, rfl, rfl⟩ ⟨value', h', rfl, rfl⟩
    obtain rfl := Option.some.inj (h'.symm.trans h)
    exact ⟨rfl, rfl⟩
  elements := by
    rintro e state result result' after after' ⟨values, h, rfl, rfl⟩ ⟨values', h', rfl, rfl⟩
    obtain rfl := Option.some.inj (h'.symm.trans h)
    exact ⟨rfl, rfl⟩

end Runtime

end PythonToCSharp.Lowering
