import PythonToCSharp.Proofs.Scope.Effects
import PythonToCSharp.Python.Binding

/-!
What the lowering of expressions and patterns does to the names of the open scopes.

`Expr.effects` lists the effects in the order in which they happen. They are the names that
assignment expressions record, wherever those stand among what is lowered, and the range variables
of comprehensions. `Expr.Holds` says what is lowered with an expression; unlike `Expr.subexprs` it
goes into lambdas and comprehensions.
-/

namespace PythonToCSharp.Python

open Scope (Effect)

/-- The expressions of a clause. -/
def Clause.parts : Clause → List Expr
  | .forIn target iter => [iter, target]
  | .onlyIf test => [test]

/-- The range variable that a clause with several targets takes them from. -/
def Clause.range : Clause → List Effect
  | .forIn (.tuple _) _ => [.here (.fresh "_t")]
  | .forIn (.list _) _ => [.here (.fresh "_t")]
  | _ => []

theorem Clause.mem_range {effect : Effect} {clause : Clause} (h : effect ∈ clause.range) :
    effect = .here (.fresh "_t") := by
  unfold Clause.range at h
  split at h <;> simp_all

theorem Clause.sizeOf_lt_of_mem_parts (clause : Clause) :
    ∀ e ∈ clause.parts, sizeOf e < sizeOf clause := by
  cases clause <;> simp +arith [Clause.parts]

theorem DictItem.sizeOf_lt_of_mem_exprs (item : DictItem) :
    ∀ e ∈ item.exprs, sizeOf e < sizeOf item := by
  cases item <;> simp +arith [DictItem.exprs]

theorem FStringPart.sizeOf_lt_of_mem_exprs (part : FStringPart) :
    ∀ e ∈ part.exprs, sizeOf e < sizeOf part := by
  cases part <;> simp +arith [FStringPart.exprs]

theorem Arg.sizeOf_value_lt (arg : Arg) : sizeOf arg.value < sizeOf arg := by
  cases arg <;> simp +arith [Arg.value]

namespace Expr

/-- The direct parts of an expression that are lowered with it. Only a dictionary comprehension has
a value, and a chain without comparisons is dropped. -/
def parts : Expr → List Expr
  | .lambda _ body => [body]
  | .comprehension .dict element value clauses =>
      clauses.flatMap Clause.parts ++ element :: value.toList
  | .comprehension _ element _ clauses => clauses.flatMap Clause.parts ++ [element]
  | .compare _ [] => []
  | e => e.children

/-- The second expression is lowered with the first. -/
inductive Holds : Expr → Expr → Prop where
  | here (e : Expr) : Holds e e
  | inPart {e part inner : Expr} : part ∈ e.parts → Holds part inner → Holds e inner

theorem Holds.trans {e middle inner : Expr} (h : e.Holds middle) (h' : middle.Holds inner) :
    e.Holds inner := by
  induction h with
  | here e => exact h'
  | inPart hpart _ ih => exact .inPart hpart (ih h')

/-- What an expression does itself, its parts aside. -/
def ownEffects : Expr → List Effect
  | .named target _ => [.here (.record target)]
  | .comprehension _ _ _ clauses => clauses.flatMap Clause.range
  | _ => []

/-- The operands of a comparison in the order in which they are lowered. -/
def inOrder (op : CmpOp) (left right : List Effect) : List Effect :=
  match op with
  | .isIn | .notIn => right ++ left
  | _ => left ++ right

mutual

/-- The effects of lowering an expression. -/
def effects : Expr → List Effect
  | .fstring parts _ => effectsParts parts
  | .binary left _ right => left.effects ++ right.effects
  | .unary _ operand => operand.effects
  | .boolean _ left right => left.effects ++ right.effects
  | .compare left comparisons => effectsCompared left.effects comparisons
  | .ifExp test body orelse => test.effects ++ (body.effects ++ orelse.effects)
  | .lambda _ body => body.effects
  | .named target value => .here (.record target) :: value.effects
  | .attribute value _ => value.effects
  | .subscript value index => value.effects ++ effectsList index
  | .slice lower upper step => effectsOption lower ++ (effectsOption upper ++ effectsOption step)
  | .call func args => func.effects ++ effectsArgs args
  | .list items => effectsList items
  | .tuple items => effectsList items
  | .set items => effectsList items
  | .dict items => effectsItems items
  | .comprehension .dict element value clauses =>
    effectsClauses clauses ++ (element.effects ++ effectsOption value)
  | .comprehension _ element _ clauses => effectsClauses clauses ++ element.effects
  | .await value => value.effects
  | .yield value => effectsOption value
  | .yieldFrom value => value.effects
  | .starred value => value.effects
  | _ => []

/-- The effects of expressions, from the left. -/
def effectsList : List Expr → List Effect
  | [] => []
  | e :: rest => e.effects ++ effectsList rest

/-- The effects of an optional expression. -/
def effectsOption : Option Expr → List Effect
  | Option.none => []
  | some e => e.effects

/-- The effects of the links of a comparison chain; a middle operand is lowered twice. -/
def effectsCompared (left : List Effect) : List (CmpOp × Expr) → List Effect
  | [] => []
  | (op, right) :: rest => inOrder op left right.effects ++ effectsCompared right.effects rest

/-- The effects of the parts of an f-string. -/
def effectsParts : List FStringPart → List Effect
  | [] => []
  | .literal _ :: rest => effectsParts rest
  | .interpolation e _ :: rest => e.effects ++ effectsParts rest

/-- The effects of arguments. -/
def effectsArgs : List Arg → List Effect
  | [] => []
  | .positional e :: rest => e.effects ++ effectsArgs rest
  | .keyword _ e :: rest => e.effects ++ effectsArgs rest
  | .star e :: rest => e.effects ++ effectsArgs rest
  | .doubleStar e :: rest => e.effects ++ effectsArgs rest

/-- The effects of the entries of a dictionary display. -/
def effectsItems : List DictItem → List Effect
  | [] => []
  | .pair key value :: rest => key.effects ++ (value.effects ++ effectsItems rest)
  | .splat e :: rest => e.effects ++ effectsItems rest

/-- The effects of the clauses of a comprehension. -/
def effectsClauses : List Clause → List Effect
  | [] => []
  | .forIn target iter :: rest =>
    iter.effects ++ (Clause.range (.forIn target iter) ++ (target.effects ++ effectsClauses rest))
  | .onlyIf test :: rest => test.effects ++ effectsClauses rest

end

/-! ## Which effects there are -/

theorem effectsList_eq (items : List Expr) : effectsList items = items.flatMap effects := by
  induction items with
  | nil => rfl
  | cons e rest ih => simp [effectsList, ih]

theorem effectsList_append (first rest : List Expr) :
    effectsList (first ++ rest) = effectsList first ++ effectsList rest := by
  simp [effectsList_eq]

theorem effectsOption_eq (e : Option Expr) : effectsOption e = e.toList.flatMap effects := by
  cases e <;> simp [effectsOption]

theorem mem_inOrder {op : CmpOp} {left right : List Effect} {effect : Effect} :
    effect ∈ inOrder op left right ↔ effect ∈ left ∨ effect ∈ right := by
  cases op <;> simp [inOrder, or_comm]

theorem mem_effectsCompared {effect : Effect} (left : List Effect) (link : CmpOp × Expr)
    (rest : List (CmpOp × Expr)) :
    effect ∈ effectsCompared left (link :: rest) ↔
      effect ∈ left ∨ ∃ e ∈ (link :: rest).map Prod.snd, effect ∈ e.effects := by
  induction rest generalizing left link with
  | nil => simp [effectsCompared, mem_inOrder]
  | cons next rest ih =>
    rw [effectsCompared, List.mem_append, mem_inOrder, ih]
    simp only [List.map_cons, List.exists_mem_cons_iff, or_assoc, or_self_left]

theorem mem_effectsParts {effect : Effect} (parts : List FStringPart) :
    effect ∈ effectsParts parts ↔ ∃ e ∈ parts.flatMap FStringPart.exprs, effect ∈ e.effects := by
  induction parts with
  | nil => simp [effectsParts]
  | cons part rest ih => cases part <;> simp [effectsParts, FStringPart.exprs, ih, or_and_right,
      exists_or]

theorem mem_effectsArgs {effect : Effect} (args : List Arg) :
    effect ∈ effectsArgs args ↔ ∃ e ∈ args.map Arg.value, effect ∈ e.effects := by
  induction args with
  | nil => simp [effectsArgs]
  | cons arg rest ih => cases arg <;> simp [effectsArgs, Arg.value, ih]

theorem mem_effectsItems {effect : Effect} (items : List DictItem) :
    effect ∈ effectsItems items ↔ ∃ e ∈ items.flatMap DictItem.exprs, effect ∈ e.effects := by
  induction items with
  | nil => simp [effectsItems]
  | cons item rest ih =>
    cases item <;> simp [effectsItems, DictItem.exprs, ih, or_and_right, exists_or]

theorem mem_effectsClauses {effect : Effect} (clauses : List Clause) :
    effect ∈ effectsClauses clauses ↔
      effect ∈ clauses.flatMap Clause.range ∨
        ∃ e ∈ clauses.flatMap Clause.parts, effect ∈ e.effects := by
  induction clauses with
  | nil => simp [effectsClauses]
  | cons clause rest ih =>
    cases clause with
    | forIn target iter =>
      simp only [effectsClauses, List.mem_append, ih, List.flatMap_cons, Clause.parts,
        List.cons_append, List.nil_append, List.exists_mem_cons_iff, or_assoc, or_left_comm]
    | onlyIf test =>
      simp only [effectsClauses, List.mem_append, ih, List.flatMap_cons, Clause.parts, Clause.range,
        List.cons_append, List.nil_append, List.exists_mem_cons_iff, or_left_comm]

/-- An effect is one of the expression itself or one of its parts. -/
theorem mem_effects_iff {effect : Effect} (e : Expr) :
    effect ∈ e.effects ↔ effect ∈ e.ownEffects ∨ ∃ part ∈ e.parts, effect ∈ part.effects := by
  cases e with
  | compare left comparisons =>
    cases comparisons with
    | nil => simp [effects, effectsCompared, parts, ownEffects]
    | cons link rest => simp [effects, mem_effectsCompared, parts, children, ownEffects]
  | comprehension kind element value clauses =>
    cases kind <;>
      simp [effects, mem_effectsClauses, effectsOption_eq, parts, ownEffects, or_assoc,
        or_and_right, exists_or]
  | _ =>
    simp [effects, effectsList_eq, effectsOption_eq, mem_effectsParts, mem_effectsArgs,
      mem_effectsItems, parts, children, ownEffects, or_and_right, exists_or, or_left_comm]

/-! ## Everything that is lowered with an expression -/

theorem sizeOf_lt_of_mem_flatMap {α : Type} [SizeOf α] {f : α → List Expr}
    (hf : ∀ a, ∀ e ∈ f a, sizeOf e < sizeOf a) {items : List α} {e : Expr}
    (h : e ∈ items.flatMap f) : sizeOf e < sizeOf items := by
  obtain ⟨a, ha, he⟩ := List.mem_flatMap.1 h
  exact Nat.lt_trans (hf a e he) (List.sizeOf_lt_of_mem ha)

theorem sizeOf_lt_of_mem_toList {value : Option Expr} {e : Expr} (h : e ∈ value.toList) :
    sizeOf e < sizeOf value := by
  rw [Option.mem_toList.1 h, Option.some.sizeOf_spec]
  omega

/-- The parts of an expression are smaller than it. -/
theorem sizeOf_lt_of_mem_parts {e part : Expr} (h : part ∈ e.parts) : sizeOf part < sizeOf e := by
  cases e with
  | fstring parts raw =>
    have := sizeOf_lt_of_mem_flatMap FStringPart.sizeOf_lt_of_mem_exprs h
    simp only [fstring.sizeOf_spec]
    omega
  | compare left comparisons =>
    cases comparisons with
    | nil => cases h
    | cons link rest =>
      rcases List.mem_cons.1 h with rfl | hright
      · simp only [compare.sizeOf_spec]
        omega
      · obtain ⟨⟨op, right⟩, hlink, rfl⟩ := List.mem_map.1 hright
        have := List.sizeOf_lt_of_mem hlink
        simp only [compare.sizeOf_spec, Prod.mk.sizeOf_spec] at this ⊢
        omega
  | subscript value index =>
    rcases List.mem_cons.1 h with rfl | hindex
    · simp only [subscript.sizeOf_spec]
      omega
    · have := List.sizeOf_lt_of_mem hindex
      simp only [subscript.sizeOf_spec]
      omega
  | slice lower upper step =>
    simp only [slice.sizeOf_spec]
    rcases List.mem_append.1 h with hfront | hstep
    · rcases List.mem_append.1 hfront with hlower | hupper
      · have := sizeOf_lt_of_mem_toList hlower
        omega
      · have := sizeOf_lt_of_mem_toList hupper
        omega
    · have := sizeOf_lt_of_mem_toList hstep
      omega
  | call func args =>
    simp only [call.sizeOf_spec]
    rcases List.mem_cons.1 h with rfl | harg
    · omega
    · obtain ⟨arg, hmem, rfl⟩ := List.mem_map.1 harg
      have := List.sizeOf_lt_of_mem hmem
      have := arg.sizeOf_value_lt
      omega
  | list items | tuple items | set items =>
    have hitem : part ∈ items := h
    have := List.sizeOf_lt_of_mem hitem
    simp only [list.sizeOf_spec, tuple.sizeOf_spec, set.sizeOf_spec]
    omega
  | dict items =>
    have := sizeOf_lt_of_mem_flatMap DictItem.sizeOf_lt_of_mem_exprs h
    simp only [dict.sizeOf_spec]
    omega
  | comprehension kind element value clauses =>
    have hcases : part ∈ clauses.flatMap Clause.parts ∨ part = element ∨ part ∈ value.toList := by
      cases kind <;> simp only [parts, List.mem_append, List.mem_cons,
        List.not_mem_nil] at h <;> tauto
    simp only [comprehension.sizeOf_spec]
    rcases hcases with hc | rfl | hv
    · have := sizeOf_lt_of_mem_flatMap Clause.sizeOf_lt_of_mem_parts hc
      omega
    · omega
    · have := sizeOf_lt_of_mem_toList hv
      omega
  | yield value =>
    have := sizeOf_lt_of_mem_toList h
    simp only [yield.sizeOf_spec]
    omega
  | _ => simp [parts, children] at h <;> grind

/-- An effect belongs to something that is lowered with the expression. -/
theorem exists_holds_of_mem_effects {effect : Effect} (e : Expr) (h : effect ∈ e.effects) :
    ∃ inner, e.Holds inner ∧ effect ∈ inner.ownEffects := by
  rcases e.mem_effects_iff.1 h with hown | ⟨part, hpart, hbelow⟩
  · exact ⟨e, .here e, hown⟩
  · have := sizeOf_lt_of_mem_parts hpart
    obtain ⟨inner, hinner, hown⟩ := exists_holds_of_mem_effects part hbelow
    exact ⟨inner, .inPart hpart hinner, hown⟩
termination_by sizeOf e

/-- The effects of an expression are those of everything that is lowered with it. -/
theorem mem_effects_iff_holds {effect : Effect} (e : Expr) :
    effect ∈ e.effects ↔ ∃ inner, e.Holds inner ∧ effect ∈ inner.ownEffects := by
  refine ⟨e.exists_holds_of_mem_effects, ?_⟩
  rintro ⟨inner, hinner, hown⟩
  induction hinner with
  | here e => exact e.mem_effects_iff.2 (.inl hown)
  | inPart hpart _ ih => exact (mem_effects_iff _).2 (.inr ⟨_, hpart, ih hown⟩)

/-- The names that an expression records are those of the assignment expressions that are lowered
with it. -/
theorem record_mem_effects {name : String} (e : Expr) :
    .here (.record name) ∈ e.effects ↔ ∃ value, e.Holds (.named name value) := by
  rw [mem_effects_iff_holds]
  constructor
  · rintro ⟨inner, hinner, hown⟩
    cases inner with
    | named target value =>
      have htarget : name = target := by simpa [ownEffects] using hown
      exact ⟨value, htarget ▸ hinner⟩
    | comprehension kind element value clauses =>
      obtain ⟨clause, -, hrange⟩ := List.mem_flatMap.1 hown
      cases Clause.mem_range hrange
    | _ => cases hown
  · rintro ⟨value, hinner⟩
    exact ⟨_, hinner, List.mem_singleton_self _⟩

/-- Apart from recorded names there are only range variables. -/
theorem eq_of_mem_effects {effect : Effect} (e : Expr) (h : effect ∈ e.effects) :
    (∃ name, effect = .here (.record name)) ∨ effect = .here (.fresh "_t") := by
  obtain ⟨inner, -, hown⟩ := e.exists_holds_of_mem_effects h
  cases inner with
  | named target value => exact .inl ⟨target, List.mem_singleton.1 hown⟩
  | comprehension kind element value clauses =>
    obtain ⟨clause, -, hrange⟩ := List.mem_flatMap.1 hown
    exact .inr (Clause.mem_range hrange)
  | _ => cases hown

end Expr

/-! ## Targets -/

namespace Expr

/-- The effects of recording what a target binds. -/
def bindings (target : Expr) : List Effect :=
  target.boundNames.map fun name => .here (.record name)

/-- The name is a leaf of the target, through any nesting of tuples, lists and stars. -/
inductive Binds (name : String) : Expr → Prop where
  | name : Binds name (.name name)
  | tuple {items : List Expr} {item : Expr} :
      item ∈ items → Binds name item → Binds name (.tuple items)
  | list {items : List Expr} {item : Expr} :
      item ∈ items → Binds name item → Binds name (.list items)
  | starred {value : Expr} : Binds name value → Binds name (.starred value)

theorem targetsAll_eq (items : List Expr) : targetsAll items = items.flatMap targets := by
  induction items with
  | nil => rfl
  | cons e rest ih => simp [targetsAll, ih]

theorem mem_boundNames_items {name : String} {items : List Expr} :
    name ∈ (targetsAll items).filterMap name? ↔ ∃ item ∈ items, name ∈ item.boundNames := by
  rw [targetsAll_eq, List.filterMap_flatMap, List.mem_flatMap]
  rfl

theorem mem_boundNames_of_binds {name : String} {target : Expr} (h : Binds name target) :
    name ∈ target.boundNames := by
  induction h with
  | name => exact List.mem_singleton_self name
  | tuple hitem _ ih | list hitem _ ih => exact mem_boundNames_items.2 ⟨_, hitem, ih⟩
  | starred _ ih => exact ih

theorem binds_of_mem_boundNames {name : String} (target : Expr) (h : name ∈ target.boundNames) :
    Binds name target := by
  cases target with
  | name id =>
    rw [List.mem_singleton.1 h]
    exact .name
  | tuple items =>
    obtain ⟨item, hitem, hname⟩ := mem_boundNames_items.1 h
    have := List.sizeOf_lt_of_mem hitem
    exact .tuple hitem (binds_of_mem_boundNames item hname)
  | list items =>
    obtain ⟨item, hitem, hname⟩ := mem_boundNames_items.1 h
    have := List.sizeOf_lt_of_mem hitem
    exact .list hitem (binds_of_mem_boundNames item hname)
  | starred value => exact .starred (binds_of_mem_boundNames value h)
  | _ => cases h
termination_by sizeOf target

theorem mem_boundNames_iff {name : String} (target : Expr) :
    name ∈ target.boundNames ↔ Binds name target :=
  ⟨target.binds_of_mem_boundNames, mem_boundNames_of_binds⟩

end Expr

/-! ## Patterns -/

namespace Pattern

mutual

/-- The expressions that are lowered with a pattern. -/
def literals : Pattern → List Expr
  | .literal e => [e]
  | .sequence items => literalsAll items
  | .mapping items _ => literalsEntries items
  | .classPattern _ positional keywords => literalsAll positional ++ literalsKeywords keywords
  | .either alternatives => literalsAll alternatives
  | .asName pattern _ => pattern.literals
  | _ => []

/-- The expressions that are lowered with patterns. -/
def literalsAll : List Pattern → List Expr
  | [] => []
  | p :: rest => p.literals ++ literalsAll rest

/-- The expressions that are lowered with the entries of a mapping pattern. -/
def literalsEntries : List (Pattern × Pattern) → List Expr
  | [] => []
  | (key, entry) :: rest => key.literals ++ (entry.literals ++ literalsEntries rest)

/-- The expressions that are lowered with keyword patterns. -/
def literalsKeywords : List (String × Pattern) → List Expr
  | [] => []
  | (_, p) :: rest => p.literals ++ literalsKeywords rest

end

end Pattern

end PythonToCSharp.Python
