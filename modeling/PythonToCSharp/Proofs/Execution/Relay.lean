import Mathlib.Logic.Function.Basic

/-!
Two ways to give one value to several targets, names or items `a[i]`: each takes the value itself,
or the first one takes it and the others take what the first one holds when they are reached. An
earlier target may have changed the variables in the first one by then, so that it stands for
another item.

Whether the second way can go wrong can be told from one heap, in which each variable has a value of
its own and no container has an item. If it runs to its end there, then the two ways agree in every
heap.
-/

namespace PythonToCSharp

/-! ## Heaps and targets -/

/-- What is stored: the values of variables and the items of containers. -/
structure Heap (Name Value : Type) where
  locals : Name → Option Value
  items : Value → Value → Option Value

/-- A place of a heap. -/
inductive Slot (Name Value : Type) where
  | named (id : Name)
  | item (container key : Value)

/-- What an assignment names: a variable, or an item by the variables that hold its container and
its key. -/
inductive Target (Name : Type) where
  | name (id : Name)
  | item (container key : Name)

variable {Name Value : Type}

/-- The value at a place, if there is one. -/
def Heap.get (heap : Heap Name Value) : Slot Name Value → Option Value
  | .named id => heap.locals id
  | .item container key => heap.items container key

namespace Target

/-- The place that a target stands for. -/
def slot (heap : Heap Name Value) : Target Name → Option (Slot Name Value)
  | .name id => some (.named id)
  | .item container key => do return .item (← heap.locals container) (← heap.locals key)

/-- The value that a target holds. -/
def read (heap : Heap Name Value) (target : Target Name) : Option Value := do
  heap.get (← target.slot heap)

/-- The variables that say which item a target stands for. -/
def operands : Target Name → List Name
  | .name _ => []
  | .item container key => [container, key]

theorem slot_item_eq_some {container key : Name} {heap : Heap Name Value} {slot : Slot Name Value} :
    (item container key).slot heap = some slot ↔
      ∃ c, heap.locals container = some c ∧
        ∃ k, heap.locals key = some k ∧ Slot.item c k = slot := by
  simp [Target.slot, Option.bind_eq_some_iff]

theorem read_eq_some {target : Target Name} {heap : Heap Name Value} {value : Value} :
    target.read heap = some value ↔ ∃ slot, target.slot heap = some slot ∧
      heap.get slot = some value :=
  Option.bind_eq_some_iff

/-- A target stands for a place if the variables that say which one have values. -/
theorem isSome_slot {target : Target Name} {heap : Heap Name Value}
    (h : ∀ id ∈ target.operands, (heap.locals id).isSome = true) :
    (target.slot heap).isSome = true := by
  cases target with
  | name id => rfl
  | item container key =>
    obtain ⟨c, hc⟩ := Option.isSome_iff_exists.1 (h container List.mem_cons_self)
    obtain ⟨k, hk⟩ := Option.isSome_iff_exists.1 (h key (List.mem_cons_of_mem _ List.mem_cons_self))
    rw [Option.isSome_iff_exists]
    exact ⟨.item c k, slot_item_eq_some.2 ⟨c, hc, k, hk, rfl⟩⟩

/-- The place of a target depends on its operands only. -/
theorem slot_congr {target : Target Name} {heap other : Heap Name Value}
    (h : ∀ id ∈ target.operands, other.locals id = heap.locals id) :
    target.slot other = target.slot heap := by
  cases target with
  | name id => rfl
  | item container key =>
    have hc : other.locals container = heap.locals container := h container List.mem_cons_self
    have hk : other.locals key = heap.locals key :=
      h key (List.mem_cons_of_mem _ List.mem_cons_self)
    simp only [slot, hc, hk]

end Target

/-! ## The telling heap -/

/-- A value that is only known by where it comes from. -/
inductive Symbol (Name : Type) where
  /-- The value of the chain. -/
  | shared
  /-- What a variable holds at the start. -/
  | initial (id : Name)
  deriving DecidableEq

/-- Each variable holds a value of its own, and no container has an item. -/
def untouched (Name : Type) : Heap Name (Symbol Name) where
  locals id := some (.initial id)
  items _ _ := none

/-- What a symbol stands for in a chain of `value` that starts from `start`. -/
def Symbol.meaning (value : Value) (start : Heap Name Value) : Symbol Name → Option Value
  | .shared => some value
  | .initial id => start.locals id

/-- A heap of symbols that is right about a heap: about all variables, and about the items it has.
-/
structure Depicts (value : Value) (start : Heap Name Value) (picture : Heap Name (Symbol Name))
    (heap : Heap Name Value) : Prop where
  locals : ∀ id, heap.locals id = (picture.locals id).bind (Symbol.meaning value start)
  items : ∀ {p q r c k}, picture.items p q = some r → p.meaning value start = some c →
    q.meaning value start = some k → r = .shared ∧ heap.items c k = some value

/-- At the start the telling heap is right about every heap. -/
theorem Depicts.start (value : Value) (start : Heap Name Value) :
    Depicts value start (untouched Name) start where
  locals _ := rfl
  items h := nomatch h

/-- The picture of a heap in which `first` has taken the value. -/
structure Taken (first : Target Name) (value : Value) (start : Heap Name Value)
    (picture : Heap Name (Symbol Name)) (heap : Heap Name Value) : Prop extends
    Depicts value start picture heap where
  holds : ∀ id, first = .name id → picture.locals id = some .shared
  bound : ∀ id ∈ first.operands, (heap.locals id).isSome = true

/-- If `first` can be read in the picture, then it holds the value. -/
theorem Taken.read {first : Target Name} {value : Value} {start heap : Heap Name Value}
    {picture : Heap Name (Symbol Name)} (h : Taken first value start picture heap)
    {symbol : Symbol Name}
    (hread : first.read picture = some symbol) :
    symbol = .shared ∧ first.read heap = some value := by
  cases first with
  | name id =>
    have hid : picture.locals id = some .shared := h.holds id rfl
    refine ⟨Option.some.inj (hread.symm.trans hid), ?_⟩
    show heap.locals id = some value
    rw [h.locals, hid]
    rfl
  | item container key =>
    obtain ⟨drawn, hdrawn, hget⟩ := Target.read_eq_some.1 hread
    obtain ⟨p, hp, q, hq, rfl⟩ := Target.slot_item_eq_some.1 hdrawn
    obtain ⟨c, hc⟩ := Option.isSome_iff_exists.1 (h.bound container List.mem_cons_self)
    obtain ⟨k, hk⟩ := Option.isSome_iff_exists.1
      (h.bound key (List.mem_cons_of_mem _ List.mem_cons_self))
    have hpc : p.meaning value start = some c := by rw [← hc, h.locals, hp, Option.bind_some]
    have hqk : q.meaning value start = some k := by rw [← hk, h.locals, hq, Option.bind_some]
    obtain ⟨hshared, hitem⟩ := h.items hget hpc hqk
    exact ⟨hshared, Target.read_eq_some.2
      ⟨.item c k, Target.slot_item_eq_some.2 ⟨c, hc, k, hk, rfl⟩, hitem⟩⟩

/-! ## Assigning -/

variable [DecidableEq Name] [DecidableEq Value]

/-- A place takes a value. -/
def Heap.set (heap : Heap Name Value) (value : Value) : Slot Name Value → Heap Name Value
  | .named id => { heap with locals := Function.update heap.locals id (some value) }
  | .item container key =>
    { heap with items := fun c k => if c = container ∧ k = key then some value else heap.items c k }

/-- A target takes a value. -/
def Target.assign (value : Value) (heap : Heap Name Value) (target : Target Name) :
    Option (Heap Name Value) := do
  return heap.set value (← target.slot heap)

namespace Heap

theorem get_set (heap : Heap Name Value) (value : Value) (slot : Slot Name Value) :
    (heap.set value slot).get slot = some value := by
  cases slot with
  | named id => exact Function.update_self id _ _
  | item container key => exact if_pos ⟨rfl, rfl⟩

/-- A place that holds a value holds it still when another place takes the same one. -/
theorem get_set_of_get {heap : Heap Name Value} {value : Value} {slot : Slot Name Value}
    (h : heap.get slot = some value) (other : Slot Name Value) :
    (heap.set value other).get slot = some value := by
  cases slot with
  | named x =>
    cases other with
    | named id =>
      show Function.update heap.locals id (some value) x = some value
      rw [Function.update_apply]
      split
      · rfl
      · exact h
    | item c k => exact h
  | item container key =>
    cases other with
    | named id => exact h
    | item c k =>
      show (if container = c ∧ key = k then some value else heap.items container key) = some value
      split
      · rfl
      · exact h

/-- A variable keeps its value, unless it is the place that takes one. -/
theorem locals_set (heap : Heap Name Value) (value : Value) (slot : Slot Name Value) (id : Name) :
    (heap.set value slot).locals id = heap.locals id ∨
      slot = .named id ∧ (heap.set value slot).locals id = some value := by
  cases slot with
  | named other =>
    by_cases h : id = other
    · subst h
      exact .inr ⟨rfl, Function.update_self _ _ _⟩
    · exact .inl (Function.update_of_ne h _ _)
  | item container key => exact .inl rfl

end Heap

namespace Target

theorem assign_eq_some {target : Target Name} {value : Value} {heap after : Heap Name Value} :
    target.assign value heap = some after ↔
      ∃ slot, target.slot heap = some slot ∧ heap.set value slot = after := by
  simp [assign, Option.bind_eq_some_iff]

/-- Only the variable that a target is changes. -/
theorem locals_assign {target : Target Name} {value : Value} {heap after : Heap Name Value}
    (h : target.assign value heap = some after) (id : Name) :
    after.locals id = heap.locals id ∨ target = .name id ∧ after.locals id = some value := by
  obtain ⟨slot, hslot, rfl⟩ := assign_eq_some.1 h
  refine (heap.locals_set value slot id).imp_right ?_
  rintro ⟨rfl, hid⟩
  cases target with
  | name other =>
    cases hslot
    exact ⟨rfl, hid⟩
  | item container key =>
    obtain ⟨c, _, k, _, hck⟩ := slot_item_eq_some.1 hslot
    cases hck

theorem isSome_locals_assign {target : Target Name} {value : Value} {heap after : Heap Name Value}
    (h : target.assign value heap = some after) {id : Name} (hid : (heap.locals id).isSome = true) :
    (after.locals id).isSome = true := by
  obtain hkeep | ⟨_, hnew⟩ := locals_assign h id
  · rwa [hkeep]
  · rw [hnew]
    rfl

/-- A target still holds a value when another one takes it that is none of its operands. -/
theorem read_assign {first target : Target Name} {value : Value} {heap after : Heap Name Value}
    (hread : first.read heap = some value) (h : target.assign value heap = some after)
    (hfree : ∀ id ∈ first.operands, target ≠ .name id) : first.read after = some value := by
  obtain ⟨place, hplace, hget⟩ := read_eq_some.1 hread
  have hsame : first.slot after = first.slot heap := by
    refine slot_congr fun id hid => ?_
    exact (locals_assign h id).resolve_right fun hname => hfree id hid hname.1
  obtain ⟨slot, hslot, rfl⟩ := assign_eq_some.1 h
  exact read_eq_some.2 ⟨place, hsame.trans hplace, Heap.get_set_of_get hget slot⟩

/-- A target holds what it has taken. -/
theorem read_assign_self {target : Target Name} {value : Value} {heap after : Heap Name Value}
    (h : target.assign value heap = some after) : target.read after = some value := by
  have hsame : target.slot after = target.slot heap := by
    refine slot_congr fun id hid => (locals_assign h id).resolve_right ?_
    rintro ⟨rfl, _⟩
    cases hid
  obtain ⟨slot, hslot, rfl⟩ := assign_eq_some.1 h
  exact read_eq_some.2 ⟨slot, hsame.trans hslot, heap.get_set value slot⟩

end Target

/-- The targets take the value, from the left. -/
def assignAll (targets : List (Target Name)) (value : Value) (heap : Heap Name Value) :
    Option (Heap Name Value) :=
  targets.foldlM (fun heap target => target.assign value heap) heap

/-- The targets take what `first` holds when they are reached, from the left. -/
def copyAll (first : Target Name) (targets : List (Target Name)) (heap : Heap Name Value) :
    Option (Heap Name Value) :=
  targets.foldlM (fun heap target => do target.assign (← first.read heap) heap) heap

/-- The first target takes the value and the others take it from there. -/
def relay (first : Target Name) (rest : List (Target Name)) (value : Value)
    (heap : Heap Name Value) : Option (Heap Name Value) := do
  copyAll first rest (← first.assign value heap)

/-- In the telling heap the others can take the value from the first target to the end. -/
def Steady (first : Target Name) (rest : List (Target Name)) : Prop :=
  (relay first rest .shared (untouched Name)).isSome = true

instance (first : Target Name) (rest : List (Target Name)) : Decidable (Steady first rest) :=
  inferInstanceAs (Decidable (_ = true))

section

variable {first target : Target Name} {value : Value} {start heap after : Heap Name Value}
  {picture next : Heap Name (Symbol Name)}

/-- A step of the chain keeps the picture right. -/
theorem Depicts.assign (h : Depicts value start picture heap)
    (hpicture : target.assign .shared picture = some next)
    (hheap : target.assign value heap = some after) : Depicts value start next after := by
  obtain ⟨drawn, hdrawn, rfl⟩ := Target.assign_eq_some.1 hpicture
  obtain ⟨slot, hslot, rfl⟩ := Target.assign_eq_some.1 hheap
  cases target with
  | name id =>
    cases hdrawn
    cases hslot
    refine ⟨fun other => ?_, h.items⟩
    show Function.update heap.locals id (some value) other =
      (Function.update picture.locals id (some .shared) other).bind _
    rw [Function.update_apply, Function.update_apply]
    split
    · rfl
    · exact h.locals other
  | item container key =>
    obtain ⟨p, hp, q, hq, rfl⟩ := Target.slot_item_eq_some.1 hdrawn
    obtain ⟨c, hc, k, hk, rfl⟩ := Target.slot_item_eq_some.1 hslot
    have hpc : p.meaning value start = some c := by rw [← hc, h.locals, hp, Option.bind_some]
    have hqk : q.meaning value start = some k := by rw [← hk, h.locals, hq, Option.bind_some]
    refine ⟨h.locals, ?_⟩
    intro p' q' r c' k' hr hc' hk'
    change (if p' = p ∧ q' = q then some Symbol.shared else picture.items p' q') = some r at hr
    show r = .shared ∧ (if c' = c ∧ k' = k then some value else heap.items c' k') = some value
    split at hr
    · next heq =>
      obtain ⟨rfl, rfl⟩ := heq
      rw [hpc] at hc'
      rw [hqk] at hk'
      cases hc'
      cases hk'
      exact ⟨(Option.some.inj hr).symm, if_pos ⟨rfl, rfl⟩⟩
    · obtain ⟨rfl, hitem⟩ := h.items hr hc' hk'
      refine ⟨rfl, ?_⟩
      split
      · rfl
      · exact hitem

theorem Taken.begin (h : Depicts value start picture heap)
    (hpicture : first.assign .shared picture = some next)
    (hheap : first.assign value heap = some after) : Taken first value start next after where
  toDepicts := h.assign hpicture hheap
  holds id hid := by
    subst hid
    exact Target.read_assign_self hpicture
  bound id hid := by
    cases first with
    | name other => cases hid
    | item container key =>
      obtain ⟨slot, hslot, -⟩ := Target.assign_eq_some.1 hheap
      obtain ⟨c, hc, k, hk, -⟩ := Target.slot_item_eq_some.1 hslot
      refine Target.isSome_locals_assign hheap ?_
      obtain rfl | rfl : id = container ∨ id = key := by simpa [Target.operands] using hid
      · rw [hc]; rfl
      · rw [hk]; rfl

theorem Taken.assign (h : Taken first value start picture heap)
    (hpicture : target.assign .shared picture = some next)
    (hheap : target.assign value heap = some after) : Taken first value start next after where
  toDepicts := h.toDepicts.assign hpicture hheap
  holds id hid := by
    obtain hkeep | ⟨_, hnew⟩ := Target.locals_assign hpicture id
    · exact hkeep.trans (h.holds id hid)
    · exact hnew
  bound id hid := Target.isSome_locals_assign hheap (h.bound id hid)

/-- As long as the picture can be continued, the others take the value. -/
theorem Taken.copyAll {rest : List (Target Name)} (h : Taken first value start picture heap)
    (hsteady : (copyAll first rest picture).isSome = true) :
    copyAll first rest heap = assignAll rest value heap := by
  induction rest generalizing picture heap with
  | nil => rfl
  | cons target rest ih =>
    obtain ⟨last, hlast⟩ := Option.isSome_iff_exists.1 hsteady
    rw [PythonToCSharp.copyAll, List.foldlM_cons] at hlast
    obtain ⟨next, hstep, hnext⟩ := Option.bind_eq_some_iff.1 hlast
    obtain ⟨symbol, hread, hpicture⟩ := Option.bind_eq_some_iff.1 hstep
    obtain ⟨rfl, hvalue⟩ := h.read hread
    rw [PythonToCSharp.copyAll, assignAll, List.foldlM_cons, List.foldlM_cons, hvalue]
    show (target.assign value heap).bind _ = (target.assign value heap).bind _
    cases hheap : target.assign value heap with
    | none => rfl
    | some after => exact ih (h.assign hpicture hheap) (Option.isSome_iff_exists.2 ⟨last, hnext⟩)

end

/-- A steady chain stores the value everywhere. -/
theorem Steady.relay_eq {first : Target Name} {rest : List (Target Name)} (h : Steady first rest)
    (value : Value)
    (heap : Heap Name Value) :
    relay first rest value heap = assignAll (first :: rest) value heap := by
  obtain ⟨last, hlast⟩ := Option.isSome_iff_exists.1 h
  obtain ⟨picture, hpicture, hrest⟩ := Option.bind_eq_some_iff.1 hlast
  rw [relay, assignAll, List.foldlM_cons]
  cases hheap : first.assign value heap with
  | none => rfl
  | some after =>
    have htaken : Taken first value heap picture after := .begin (.start value heap) hpicture hheap
    exact htaken.copyAll (Option.isSome_iff_exists.2 ⟨last, hrest⟩)

section

variable {value : Value} {heap : Heap Name Value} (hall : ∀ id, (heap.locals id).isSome = true)
include hall

/-- Where all variables have values, a target takes a value, and they still have. -/
theorem Target.exists_assign (target : Target Name) (new : Value) :
    ∃ after, target.assign new heap = some after ∧ ∀ id, (after.locals id).isSome = true := by
  have hsome : (target.slot heap).isSome = true := isSome_slot fun id _ => hall id
  obtain ⟨slot, hslot⟩ := Option.isSome_iff_exists.1 hsome
  have hafter : target.assign new heap = some (heap.set new slot) :=
    assign_eq_some.2 ⟨slot, hslot, rfl⟩
  exact ⟨_, hafter, fun id => isSome_locals_assign hafter (hall id)⟩

theorem isSome_assignAll (targets : List (Target Name)) :
    (assignAll targets value heap).isSome = true := by
  induction targets generalizing heap with
  | nil => rfl
  | cons target rest ih =>
    obtain ⟨after, hafter, hnext⟩ := target.exists_assign hall value
    rw [assignAll, List.foldlM_cons, hafter]
    exact ih hnext

/-- The others can take a value from `first` to the end if only the last of them is an operand of
`first`. -/
theorem isSome_copyAll {first : Target Name} {rest : List (Target Name)}
    (hread : first.read heap = some value)
    (hfree : ∀ id ∈ first.operands, .name id ∉ rest.dropLast) :
    (copyAll first rest heap).isSome = true := by
  induction rest generalizing heap with
  | nil => rfl
  | cons target rest ih =>
    obtain ⟨after, hafter, hnext⟩ := target.exists_assign hall value
    rw [copyAll, List.foldlM_cons, hread]
    show ((target.assign value heap).bind (copyAll first rest)).isSome = true
    rw [hafter]
    cases rest with
    | nil => rfl
    | cons other rest =>
      refine ih hnext (Target.read_assign hread hafter ?_) fun id hid hmem => ?_
      · rintro id hid rfl
        exact hfree id hid List.mem_cons_self
      · exact hfree id hid (List.mem_cons_of_mem _ hmem)

end

theorem Steady.of_free {first : Target Name} {rest : List (Target Name)}
    (hfree : ∀ id ∈ first.operands, .name id ∉ rest.dropLast) : Steady first rest := by
  have hfresh : ∀ id, ((untouched Name).locals id).isSome = true := fun _ => rfl
  obtain ⟨after, hafter, hall⟩ := first.exists_assign hfresh Symbol.shared
  rw [Steady, relay, hafter]
  exact isSome_copyAll hall (Target.read_assign_self hafter) hfree

-- the others may change the variables of the first target as long as it stands for an item that
-- holds the value
example : Steady (.item "a" "i") [.name "c", .item "c" "i", .name "a", .name "b"] := by decide

example : ¬Steady (.item "a" "i") [.name "i", .name "b"] := by decide

end PythonToCSharp
