import PythonToCSharp.Proofs.Execution.Relay
import PythonToCSharp.Proofs.Execution.Runtime

/-!
Chains of assignments `t₁ = t₂ = … = v` to names and to items `a[i]`.

The source finds the value once and gives it to the targets from the left, and each subscript is
found when its target is reached. The emitted lines give the value to the first target only and let
the others take it from there. Main statement: the lines store one value everywhere, whatever is
stored before, exactly if the chain is steady and does not assign to the receiver.
-/

namespace PythonToCSharp.Lowering

open CSharp (escapeIdentifier isIdentifier)

variable {Value : Type}

/-! ## Chains on both sides -/

/-- The names of the source. -/
abbrev Identifier := { id : String // isIdentifier id.toList = true }

/-- The target as an expression of the source. -/
def pythonTarget : Target Identifier → Python.Expr
  | .name id => .name id
  | .item container key => .subscript (.name container) [.name key]

/-- The target as a C# expression. -/
def csharpTarget : Target String → CSharp.Expr
  | .name x => .name x
  | .item container key => .index (.name container) [.name key]

/-- The target that a C# expression is. Nothing can be assigned to `this`. -/
def target? : CSharp.Expr → Option (Target String)
  | .name x => if x = "this" then none else some (.name x)
  | .index (.name container) [.name key] => some (.item container key)
  | _ => none

/-- The target with its names as they are spelled where `self` stands for the instance. -/
def spelled (self : Option String) : Target Identifier → Target String
  | .name id => .name (spelling self id)
  | .item container key => .item (spelling self container) (spelling self key)

/-- What the source sees of a heap of the emitted code. -/
def seen (self : Option String) (heap : Heap String Value) : Heap Identifier Value where
  locals id := heap.locals (spelling self id)
  items := heap.items

/-- The values of expressions that have no side effects, for the source and for C#. -/
structure Evaluation (Value : Type) where
  python : Python.Expr → Heap Identifier Value → Option Value
  csharp : CSharp.Expr → Heap String Value → Option Value
  csharp_target : ∀ target heap, csharp (csharpTarget target) heap = target.read heap

namespace Evaluation

variable (eval : Evaluation Value)

/-- The value of an expression is that of what it is lowered to, where `self` stands for the
instance. -/
def Faithful (names : LibraryNames) (self : Option String) (value : Python.Expr) : Prop :=
  ∀ lowered, LowersExpr names self value lowered →
    ∀ heap, eval.csharp lowered heap = eval.python value (seen self heap)

/-- An evaluation that knows integers and targets. -/
def ofIntegers (integer : String → Option Value) : Evaluation Value where
  python
    | .int text, _ => integer text
    | _, _ => none
  csharp
    | .literal text, _ => integer text
    | .name x, heap => heap.locals x
    | .index (.name container) [.name key], heap => (Target.item container key).read heap
    | _, _ => none
  csharp_target
    | .name _, _ => rfl
    | .item _ _, _ => rfl

theorem faithful_int (integer : String → Option Value) (names : LibraryNames)
    (self : Option String) : (ofIntegers integer).Faithful names self (.int "5") := by
  rintro _ ⟨s, _, rfl⟩ heap
  have htext : CSharp.intLiteral "5" = "5" := by decide
  exact congrArg integer htext

variable [DecidableEq Value]

/-- A chain of the source: the value is found once, and then the targets take it from the left. -/
def chain (targets : List (Target Identifier)) (value : Python.Expr)
    (heap : Heap Identifier Value) : Option (Heap Identifier Value) := do
  assignAll targets (← eval.python value heap) heap

/-- What an assignment of the emitted code does. -/
def run (heap : Heap String Value) : CSharp.Stmt → Option (Heap String Value)
  | .assign target value => do
    let value ← eval.csharp value heap
    (← target? target).assign value heap
  | _ => none

/-- What lines of the emitted code do, one after the other. -/
def runAll (lines : Block) (heap : Heap String Value) : Option (Heap String Value) :=
  lines.foldlM eval.run heap

end Evaluation

/-- The lines for a chain do what the chain does, whatever its value is and whatever is stored
before. -/
def StoresOneValue (names : LibraryNames) (s : State) (targets : List (Target Identifier)) : Prop :=
  ∀ (Value : Type) [DecidableEq Value] (eval : Evaluation Value) (value : Python.Expr),
    eval.Faithful names s.scopes.receiver value → ∀ heap,
      (eval.runAll (lowerAssign names (targets.map pythonTarget) value s).1 heap).map
        (seen s.scopes.receiver) = eval.chain targets value (seen s.scopes.receiver heap)

/-! ## Spelling -/

variable (self : Option String)

theorem spelling_injective : Function.Injective fun id : Identifier => spelling self id := by
  intro a b h
  change (if self = some a.1 then "this" else escapeIdentifier a) =
    (if self = some b.1 then "this" else escapeIdentifier b) at h
  split at h
  · next ha =>
    split at h
    · next hb => exact Subtype.ext (Option.some.inj (ha.symm.trans hb))
    · exact absurd h.symm (escapeIdentifier_ne_this b)
  · split at h
    · exact absurd h (escapeIdentifier_ne_this a)
    · exact Subtype.ext (escapeIdentifier_injective a.2 b.2 h)

/-- Each heap of the source is seen in some heap of the emitted code. -/
theorem exists_seen (heap : Heap Identifier Value) :
    ∃ emitted : Heap String Value, seen self emitted = heap := by
  refine ⟨⟨Function.extend (fun id : Identifier => spelling self id) heap.locals fun _ =>
    none, heap.items⟩, ?_⟩
  have hlocals : (fun id : Identifier =>
      Function.extend (fun id : Identifier => spelling self id) heap.locals (fun _ => none)
        (spelling self id)) = heap.locals :=
    funext fun id => (spelling_injective self).extend_apply _ _ id
  rw [seen, hlocals]

theorem read_spelled (target : Target Identifier) (heap : Heap String Value) :
    (spelled self target).read heap = target.read (seen self heap) := by
  cases target with
  | name id => rfl
  | item container key =>
    show (Option.bind (do return Slot.item (← heap.locals _) (← heap.locals _)) heap.get) =
      Option.bind (do return Slot.item (← heap.locals _) (← heap.locals _)) (seen self heap).get
    cases heap.locals (spelling self container) with
    | none => rfl
    | some c =>
      cases heap.locals (spelling self key) with
      | none => rfl
      | some k => rfl

variable [DecidableEq Value]

theorem assign_spelled (target : Target Identifier) (value : Value) (heap : Heap String Value) :
    ((spelled self target).assign value heap).map (seen self) =
      target.assign value (seen self heap) := by
  cases target with
  | name id =>
    have hlocals := Function.update_comp_eq_of_injective heap.locals
      (spelling_injective self) id (some value)
    show some (Heap.mk (Function.update heap.locals (spelling self id) (some value) ∘ _)
      heap.items) = _
    rw [hlocals]
    rfl
  | item container key =>
    simp only [spelled, Target.assign, Target.slot, seen]
    cases heap.locals (spelling self container) with
    | none => rfl
    | some c =>
      cases heap.locals (spelling self key) with
      | none => rfl
      | some k => rfl

theorem copyAll_spelled (first : Target Identifier) (rest : List (Target Identifier))
    (heap : Heap String Value) :
    (copyAll (spelled self first) (rest.map (spelled self)) heap).map (seen self) =
      copyAll first rest (seen self heap) := by
  induction rest generalizing heap with
  | nil => rfl
  | cons target rest ih =>
    rw [List.map_cons, copyAll, copyAll, List.foldlM_cons, List.foldlM_cons, read_spelled]
    cases first.read (seen self heap) with
    | none => rfl
    | some value =>
      show (((spelled self target).assign value heap).bind _).map _ =
        (target.assign value (seen self heap)).bind _
      rw [← assign_spelled]
      cases (spelled self target).assign value heap with
      | none => rfl
      | some after => exact ih after

theorem relay_spelled (first : Target Identifier) (rest : List (Target Identifier))
    (value : Value) (heap : Heap String Value) :
    (relay (spelled self first) (rest.map (spelled self)) value heap).map (seen self) =
      relay first rest value (seen self heap) := by
  rw [relay, relay, ← assign_spelled]
  cases (spelled self first).assign value heap with
  | none => rfl
  | some after => exact copyAll_spelled self first rest after

/-! ## Running the lines -/

theorem target?_csharpTarget {target : Target String} (h : target ≠ .name "this") :
    target? (csharpTarget target) = some target := by
  cases target with
  | name x => exact if_neg fun hx => h (congrArg Target.name hx)
  | item container key => rfl

section

variable {names : LibraryNames} {self : Option String}

theorem yields_pythonTarget (target : Target Identifier) :
    Yields self (lowerTarget names (pythonTarget target)) (csharpTarget (spelled self target)) := by
  cases target with
  | name id => exact .lowerName id
  | item container key =>
    have hkey : ∀ item ∈ [Python.Expr.name key], OperatorExpr item := by
      rintro item (_ | ⟨_, ⟨⟩⟩)
      exact .name key.2
    exact yields_lowerExpr (.subscript (.name container.2) (List.cons_ne_nil _ _) hkey)

theorem yields_pythonTargets (targets : List (Target Identifier)) :
    Yields self (lowerTargets names (targets.map pythonTarget))
      (targets.map (csharpTarget ∘ spelled self)) := by
  induction targets with
  | nil => exact .pure _
  | cons target rest ih => exact .bind (yields_pythonTarget target) (.map ih _)

end

/-- The line that gives the first target its value, and those that let the others take it from
there. -/
def chainLines (self : Option String) (first : Target Identifier) (rest : List (Target Identifier))
    (value : CSharp.Expr) : Block :=
  .assign (csharpTarget (spelled self first)) value ::
    rest.map fun target => .assign (csharpTarget (spelled self target))
      (csharpTarget (spelled self first))

theorem lowerAssign_eq_chainLines (names : LibraryNames) (s : State) (first : Target Identifier)
    (rest : List (Target Identifier)) (value : Python.Expr) :
    ∃ lowered, LowersExpr names s.scopes.receiver value lowered ∧
      (lowerAssign names ((first :: rest).map pythonTarget) value s).1 =
        chainLines s.scopes.receiver first rest lowered := by
  let S : Body := ⟨names, s.scopes.receiver, [], [], loopFragment⟩
  have hgives : S.Gives (fun lines => ∃ lowered, LowersExpr S.names S.self value lowered ∧
      lines = chainLines S.self first rest lowered)
        (lowerAssign names ((first :: rest).map pythonTarget) value) := by
    refine .behind (.forM keepsPlace_recordTarget _) fun _ => ?_
    refine .bind (P := LowersExpr S.names S.self value) (keepsPlace_lowerExpr names value)
      (fun s hs => ⟨s, hs, rfl⟩) fun lowered hlowered => ?_
    refine .bind (P := (· = (first :: rest).map (csharpTarget ∘ spelled S.self)))
      (keepsPlace_lowerTargets names _)
      (fun s hs => (yields_pythonTargets (first :: rest) s hs).1) ?_
    rintro _ rfl
    refine .pure ⟨lowered, hlowered, ?_⟩
    rw [List.map_map]
    rfl
  exact hgives s rfl

variable (eval : Evaluation Value)

theorem run_assign {target : Target String} (h : target ≠ .name "this") (value : CSharp.Expr)
    (heap : Heap String Value) :
    eval.run heap (.assign (csharpTarget target) value) =
      (eval.csharp value heap).bind fun value => target.assign value heap := by
  rw [Evaluation.run, target?_csharpTarget h]
  rfl

/-- Lines that take from the first target what it holds. -/
theorem runAll_copies {first : Target String} {rest : List (Target String)}
    (h : .name "this" ∉ rest) (heap : Heap String Value) :
    eval.runAll (rest.map fun target => .assign (csharpTarget target) (csharpTarget first)) heap =
      copyAll first rest heap := by
  induction rest generalizing heap with
  | nil => rfl
  | cons target rest ih =>
    have hthis : target ≠ .name "this" := fun heq => h (heq ▸ List.mem_cons_self)
    rw [Evaluation.runAll, copyAll, List.map_cons, List.foldlM_cons, List.foldlM_cons,
      run_assign eval hthis, eval.csharp_target]
    exact bind_congr (ih fun hmem => h (List.mem_cons_of_mem _ hmem))

theorem spelled_ne_this {self : Option String} {target : Target Identifier}
    (h : ∀ id : Identifier, self = some id.1 → target ≠ .name id) :
    spelled self target ≠ .name "this" := by
  cases target with
  | item container key => exact nofun
  | name id =>
    have hself : self ≠ some id.1 := fun heq => h id heq rfl
    show Target.name (if self = some id.1 then "this" else escapeIdentifier id) ≠ _
    rw [if_neg hself]
    exact fun heq => escapeIdentifier_ne_this id (Target.name.inj heq)

/-- Where no target is the receiver, the lines hand the value on from the first target. -/
theorem runAll_chainLines {self : Option String} {first : Target Identifier}
    {rest : List (Target Identifier)}
    (h : ∀ id : Identifier, self = some id.1 → .name id ∉ first :: rest) (value : CSharp.Expr)
    (heap : Heap String Value) :
    (eval.runAll (chainLines self first rest value) heap).map (seen self) =
      (eval.csharp value heap).bind fun value => relay first rest value (seen self heap) := by
  have hthis : ∀ target ∈ first :: rest, spelled self target ≠ .name "this" :=
    fun target hmem => spelled_ne_this fun id hid heq => h id hid (heq ▸ hmem)
  have hrest : .name "this" ∉ rest.map (spelled self) := by
    intro hmem
    obtain ⟨target, htarget, heq⟩ := List.mem_map.1 hmem
    exact hthis target (List.mem_cons_of_mem _ htarget) heq
  have hlines :
      (rest.map fun target => .assign (csharpTarget (spelled self target))
        (csharpTarget (spelled self first))) =
      (rest.map (spelled self)).map fun target =>
        CSharp.Stmt.assign (csharpTarget target) (csharpTarget (spelled self first)) := by
    rw [List.map_map]
    rfl
  rw [chainLines, hlines, Evaluation.runAll, List.foldlM_cons,
    run_assign eval (hthis first List.mem_cons_self)]
  cases eval.csharp value heap with
  | none => rfl
  | some value =>
    rw [Option.bind_some, Option.bind_some, ← relay_spelled, relay]
    exact congrArg (Option.map (seen self)) (bind_congr (runAll_copies eval hrest))

/-- Lines that run to their end assign to targets. -/
theorem isSome_target?_of_runAll {lines : Block} {heap : Heap String Value}
    (h : (eval.runAll lines heap).isSome = true) {target value : CSharp.Expr}
    (hmem : .assign target value ∈ lines) : (target? target).isSome = true := by
  induction lines generalizing heap with
  | nil => cases hmem
  | cons line rest ih =>
    obtain ⟨last, hlast⟩ := Option.isSome_iff_exists.1 h
    rw [Evaluation.runAll, List.foldlM_cons] at hlast
    obtain ⟨after, hafter, hrest⟩ := Option.bind_eq_some_iff.1 hlast
    obtain rfl | hmem := List.mem_cons.1 hmem
    · obtain ⟨_, _, htarget⟩ := Option.bind_eq_some_iff.1 hafter
      obtain ⟨t, ht, _⟩ := Option.bind_eq_some_iff.1 htarget
      exact Option.isSome_iff_exists.2 ⟨t, ht⟩
    · exact ih (Option.isSome_iff_exists.2 ⟨last, hrest⟩) hmem

/-- A chain whose lines run to their end does not assign to the receiver. -/
theorem receiver_notMem_of_runAll {self : Option String} {first : Target Identifier}
    {rest : List (Target Identifier)} {value : CSharp.Expr} {heap : Heap String Value}
    (h : (eval.runAll (chainLines self first rest value) heap).isSome = true) (id : Identifier)
    (hid : self = some id.1) : .name id ∉ first :: rest := by
  intro hmem
  have hline : ∃ taken, .assign (csharpTarget (spelled self (.name id))) taken ∈
      chainLines self first rest value := by
    obtain rfl | hrest := List.mem_cons.1 hmem
    · exact ⟨value, List.mem_cons_self⟩
    · exact ⟨_, List.mem_cons_of_mem _ (List.mem_map_of_mem hrest)⟩
  obtain ⟨taken, htaken⟩ := hline
  have hthis : spelling self id = "this" := if_pos hid
  have htarget := isSome_target?_of_runAll eval h htaken
  rw [spelled, hthis] at htarget
  exact absurd htarget (by decide)

/-! ## When one value is stored -/

/-- The lines for a chain store its value everywhere if and only if no target is the receiver and
the chain is steady. It is steady at least if no variable that says which item the first target is
stands among the others before the last one. -/
theorem chain_stores_one_value_iff (names : LibraryNames) (s : State) (first : Target Identifier)
    (rest : List (Target Identifier)) :
    (StoresOneValue names s (first :: rest) ↔
      (∀ id : Identifier, s.scopes.receiver = some id.1 → .name id ∉ first :: rest) ∧
        Steady first rest) ∧
    ((∀ id ∈ first.operands, .name id ∉ rest.dropLast) → Steady first rest) := by
  refine ⟨⟨fun h => ?_, ?_⟩, Steady.of_free⟩
  · -- the telling heap alone decides both
    let tracing : Evaluation (Symbol Identifier) := .ofIntegers fun _ => some .shared
    obtain ⟨heap, hheap⟩ := exists_seen s.scopes.receiver (untouched Identifier)
    obtain ⟨lowered, hlowered, hlines⟩ := lowerAssign_eq_chainLines names s first rest (.int "5")
    have hfaithful : tracing.Faithful names s.scopes.receiver (.int "5") :=
      Evaluation.faithful_int _ names _
    have hrun := h _ tracing (.int "5") hfaithful heap
    rw [hheap, hlines] at hrun
    have hall : (tracing.chain (first :: rest) (.int "5") (untouched Identifier)).isSome = true :=
      isSome_assignAll (fun _ => rfl) _
    have hsome :
        (tracing.runAll (chainLines s.scopes.receiver first rest lowered) heap).isSome = true := by
      rw [← Option.isSome_map, hrun, hall]
    have hself := receiver_notMem_of_runAll tracing hsome
    refine ⟨hself, ?_⟩
    rw [runAll_chainLines tracing hself, hfaithful lowered hlowered, hheap] at hrun
    exact (congrArg Option.isSome hrun).trans hall
  · rintro ⟨hself, hsteady⟩ Value _ eval value hfaithful heap
    obtain ⟨lowered, hlowered, hlines⟩ := lowerAssign_eq_chainLines names s first rest value
    rw [hlines, runAll_chainLines eval hself, hfaithful lowered hlowered]
    exact bind_congr fun v => hsteady.relay_eq v _

/-- After `a[i] = i = b = 5` the source has 5 in `b`. The last line takes it from `a[i]` again,
which is the item at 5 by then. -/
theorem subscriptChain_stores_two_values :
    ¬StoresOneValue {} {}
    [.item ⟨"a", by decide⟩ ⟨"i", by decide⟩, .name ⟨"i", by decide⟩, .name ⟨"b", by decide⟩] := by
  let eval : Evaluation Nat := .ofIntegers fun _ => some 5
  let heap : Heap String Nat := ⟨fun _ => some 1, fun _ _ => some 7⟩
  intro h
  have hrun := h Nat eval (.int "5") (Evaluation.faithful_int _ _ _) heap
  have hb := congrArg (Option.map fun heap => heap.locals ⟨"b", by decide⟩) hrun
  exact absurd hb (by decide +kernel)

end PythonToCSharp.Lowering
