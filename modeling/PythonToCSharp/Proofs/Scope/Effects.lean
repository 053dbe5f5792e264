import PythonToCSharp.Proofs.Scope.Operations
import PythonToCSharp.Scope.Stack

/-!
What the lowering of a part of a body does to the names of the open scopes: operations on the
innermost frame, and names that are recorded in the frame of the module.

Only these two frames are touched. Behind a scope of its own, which is left again, only the names
recorded in the module remain.
-/

namespace PythonToCSharp.Scope

/-- What is done to the names of the open scopes. -/
inductive Effect where
  /-- An operation on the innermost frame. -/
  | here (op : Operation)
  /-- A name is recorded in the frame of the module. -/
  | inModule (name : String)

namespace Effect

/-- The operation on the innermost frame, if the effect is one. -/
def here? : Effect → Option Operation
  | .here op => some op
  | .inModule _ => none

/-- The name that is recorded in the frame of the module, if the effect records one. -/
def inModule? : Effect → Option String
  | .here _ => none
  | .inModule name => some name

/-- The operation that an effect is where the frame of the module is the innermost one. -/
def onModule : Effect → Operation
  | .here op => op
  | .inModule name => .record name

/-- The name that an effect records in the innermost frame. -/
def recorded? (effect : Effect) : Option String :=
  effect.here?.bind Operation.recorded?

/-- The name that an effect excludes from the innermost frame. -/
def excluded? (effect : Effect) : Option String :=
  effect.here?.bind Operation.excluded?

/-- The base that an effect generates a name from. -/
def base? (effect : Effect) : Option String :=
  effect.here?.bind Operation.base?

/-- What remains of the effects of a body when its scope is left. -/
def passedOn (effects : List Effect) : List Effect :=
  (effects.filterMap inModule?).map .inModule

section Reading

variable {f : Operation → Option String} (effects : List Effect) (name : String)

/-- What is read off the operations on the innermost frame is read off the effects. -/
theorem exists_here_iff :
    (∃ op ∈ effects.filterMap here?, f op = some name) ↔
      ∃ effect ∈ effects, effect.here?.bind f = some name := by
  simp only [List.mem_filterMap, Option.bind_eq_some_iff]
  grind

theorem exists_recorded_onModule :
    (∃ op ∈ effects.map onModule, op.recorded? = some name) ↔
      (∃ effect ∈ effects, effect.recorded? = some name) ∨ .inModule name ∈ effects := by
  induction effects with
  | nil => simp
  | cons effect rest ih =>
    rw [List.map_cons, List.exists_mem_cons_iff, ih, List.exists_mem_cons_iff, List.mem_cons]
    cases effect with
    | here op => simp [onModule, recorded?, here?, or_assoc]
    | inModule other => simp [onModule, recorded?, here?, Operation.recorded?, eq_comm,
        or_left_comm]

theorem exists_excluded_onModule :
    (∃ op ∈ effects.map onModule, op.excluded? = some name) ↔
      ∃ effect ∈ effects, effect.excluded? = some name := by
  induction effects with
  | nil => simp
  | cons effect rest ih =>
    rw [List.map_cons, List.exists_mem_cons_iff, ih, List.exists_mem_cons_iff]
    cases effect with
    | here op => simp [onModule, excluded?, here?]
    | inModule other => simp [onModule, excluded?, here?, Operation.excluded?]

end Reading

end Effect

/-- What of the body around decides which parts of a statement are lowered. -/
structure Surroundings where
  inClass : Bool
  isGenerator : Bool

/-! ## One frame -/

namespace Frame

/-- The surroundings that a frame is for the statements of its body. -/
def surroundings (frame : Frame) : Surroundings :=
  ⟨frame.kind == .class_, frame.isGenerator⟩

/-- The frame with nothing but its names, its kind and its generator mark. -/
def ledger (frame : Frame) : Frame :=
  { frame with fields := [], breakTargets := [], receiver := none }

theorem ledger_record (frame : Frame) (name : String) :
    (frame.record name).ledger = frame.ledger.record name := by
  have hnew : frame.ledger.isNew name = frame.isNew name := rfl
  unfold record
  rw [hnew]
  split <;> rfl

theorem ledger_recordHinted (frame : Frame) (name hint : String) :
    (frame.recordHinted name hint).ledger = frame.ledger.recordHinted name hint := by
  have h := frame.ledger_record name
  unfold recordHinted
  rw [← h]
  rfl

theorem ledger_enterTry (frame : Frame) :
    frame.enterTry.2.ledger = frame.ledger.enterTry.2 ∧
      frame.ledger.enterTry.1 = frame.enterTry.1 := by
  have hflags : frame.ledger.flags[frame.ledger.tryDepth]? = frame.flags[frame.tryDepth]? := rfl
  unfold enterTry
  rw [hflags]
  split <;> exact ⟨rfl, rfl⟩

/-- Operations depend on the names of a frame only. -/
theorem ledger_apply (frame : Frame) (op : Operation) :
    (frame.apply op).ledger = frame.ledger.apply op := by
  cases op with
  | record name => exact frame.ledger_record name
  | recordHinted name hint => exact frame.ledger_recordHinted name hint
  | enterTry => exact frame.ledger_enterTry.1
  | _ => rfl

theorem surroundings_apply (frame : Frame) (op : Operation) :
    (frame.apply op).surroundings = frame.surroundings := by
  cases op with
  | record name =>
    simp only [apply, record]
    split <;> rfl
  | recordHinted name hint =>
    simp only [apply, recordHinted, record]
    split <;> rfl
  | enterTry =>
    simp only [apply, enterTry]
    split <;> rfl
  | _ => rfl

end Frame

/-! ## The open frames -/

namespace Stack

/-- The open frames with nothing but their names. -/
def ledger (stack : Stack) : Stack :=
  ⟨stack.root.ledger, stack.nested.map Frame.ledger⟩

/-- The open frames after an effect. -/
def perform (stack : Stack) : Effect → Stack
  | .here op => stack.modifyCurrent (·.apply op)
  | .inModule name => stack.modifyRoot (·.record name)

/-- The name that an effect hands out. -/
def answer? (stack : Stack) : Effect → Option String
  | .here op => stack.current.answer? op
  | .inModule _ => none

/-- The open frames after effects, from the left. -/
def performAll (stack : Stack) (effects : List Effect) : Stack :=
  effects.foldl perform stack

/-- The names that effects hand out, in order. -/
def answers (stack : Stack) : List Effect → List String
  | [] => []
  | effect :: rest => (stack.answer? effect).toList ++ (stack.perform effect).answers rest

variable (stack : Stack)

theorem performAll_cons (effect : Effect) (rest : List Effect) :
    stack.performAll (effect :: rest) = (stack.perform effect).performAll rest := rfl

theorem performAll_append (first rest : List Effect) :
    stack.performAll (first ++ rest) = (stack.performAll first).performAll rest :=
  List.foldl_append

theorem answers_append (first rest : List Effect) :
    stack.answers (first ++ rest) = stack.answers first ++
      (stack.performAll first).answers rest := by
  induction first generalizing stack with
  | nil => rfl
  | cons effect others ih => simp [answers, performAll_cons, ih]

/-! ### Ledgers -/

theorem current_ledger : stack.ledger.current = stack.current.ledger := by
  cases hn : stack.nested <;> simp [ledger, current, hn]

theorem modifyCurrent_congr {f g : Frame → Frame} (h : f stack.current = g stack.current) :
    stack.modifyCurrent f = stack.modifyCurrent g := by
  unfold modifyCurrent
  unfold current at h
  cases hn : stack.nested <;> simp_all

/-- A change that depends on the names of the frame only. -/
theorem ledger_modifyCurrent {f : Frame → Frame}
    (h : ∀ frame : Frame, (f frame).ledger = f frame.ledger) :
    (stack.modifyCurrent f).ledger = stack.ledger.modifyCurrent f := by
  cases hn : stack.nested <;> simp [ledger, modifyCurrent, hn, h]

/-- A change that leaves the names of the frame alone. -/
theorem ledger_modifyCurrent_hidden {f : Frame → Frame}
    (h : ∀ frame : Frame, (f frame).ledger = frame.ledger) :
    (stack.modifyCurrent f).ledger = stack.ledger := by
  cases hn : stack.nested <;> simp [ledger, modifyCurrent, hn, h]

theorem ledger_addFieldIn (name : String) (frames : List Frame) :
    (addFieldIn name frames).map Frame.ledger = frames.map Frame.ledger := by
  induction frames with
  | nil => rfl
  | cons frame rest ih =>
    unfold addFieldIn
    split
    · simp [Frame.addField, Frame.ledger]
    · simp [ih]

theorem ledger_addClassField (name : String) :
    (stack.addClassField name).ledger = stack.ledger := by
  simp [ledger, addClassField, ledger_addFieldIn]

/-! ### What remains of effects -/

theorem surroundings_perform (effect : Effect) :
    (stack.perform effect).current.surroundings = stack.current.surroundings := by
  cases effect with
  | here op =>
    cases hn : stack.nested <;> simp [perform, modifyCurrent, current, hn, Frame.surroundings_apply]
  | inModule name =>
    have h : (stack.root.record name).surroundings = stack.root.surroundings :=
      stack.root.surroundings_apply (.record name)
    cases hn : stack.nested
    · simpa [perform, modifyRoot, current, hn] using h
    · simp [perform, modifyRoot, current, hn]

theorem surroundings_performAll (effects : List Effect) :
    (stack.performAll effects).current.surroundings = stack.current.surroundings := by
  induction effects generalizing stack with
  | nil => rfl
  | cons effect rest ih => rw [performAll_cons, ih, surroundings_perform]

variable (root frame : Frame) (rest : List Frame)

/-- Above the module, the innermost frame takes the operations and the frame of the module the
names. -/
theorem performAll_nested (effects : List Effect) :
    performAll ⟨root, frame :: rest⟩ effects =
        ⟨root.run ((effects.filterMap Effect.inModule?).map .record),
          frame.run (effects.filterMap Effect.here?) :: rest⟩ ∧
      answers ⟨root, frame :: rest⟩ effects = frame.handedOut (effects.filterMap Effect.here?) := by
  induction effects generalizing root frame with
  | nil => exact ⟨rfl, rfl⟩
  | cons effect others ih =>
    cases effect with
    | here op =>
      obtain ⟨hstack, hanswers⟩ := ih root (frame.apply op)
      exact ⟨hstack, congrArg _ hanswers⟩
    | inModule name => exact ih (root.record name) frame

/-- In the module itself, its frame takes everything. -/
theorem performAll_root (effects : List Effect) :
    performAll ⟨root, []⟩ effects = ⟨root.run (effects.map Effect.onModule), []⟩ ∧
      answers ⟨root, []⟩ effects = root.handedOut (effects.map Effect.onModule) := by
  induction effects generalizing root with
  | nil => exact ⟨rfl, rfl⟩
  | cons effect others ih =>
    cases effect with
    | here op =>
      obtain ⟨hstack, hanswers⟩ := ih (root.apply op)
      exact ⟨hstack, congrArg _ hanswers⟩
    | inModule name => exact ih (root.record name)

/-- Names that are recorded in the module go into its frame only, wherever that happens. -/
theorem performAll_inModule (names : List String) :
    performAll ⟨root, rest⟩ (names.map .inModule) = ⟨root.run (names.map .record), rest⟩ := by
  induction names generalizing root with
  | nil => rfl
  | cons name others ih => exact ih (root.record name)

end Stack

end PythonToCSharp.Scope
