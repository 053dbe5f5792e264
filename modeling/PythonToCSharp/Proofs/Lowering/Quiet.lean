import PythonToCSharp.Proofs.Lowering.Rendering

/-!
Steps that add no directive, no class and no field.

The face of a state is what it holds beside places, findings and names: of each open frame its kind,
its receiver and its fields, and further the directives, the classes that are put off and the
classes around. A step is quiet if it leaves the face as it is. All steps are that are composed like
those for expressions, which most of those for simple statements are.
-/

namespace PythonToCSharp.Scope

/-- The frame with nothing but its kind, its receiver and its fields. -/
def Frame.face (frame : Frame) : Frame :=
  { kind := frame.kind, receiver := frame.receiver, fields := frame.fields }

theorem Frame.face_record (frame : Frame) (name : String) :
    (frame.record name).face = frame.face := by
  unfold record
  split <;> rfl

theorem Frame.face_recordHinted (frame : Frame) (name hint : String) :
    (frame.recordHinted name hint).face = frame.face :=
  frame.face_record name

theorem Frame.face_enterTry (frame : Frame) : frame.enterTry.2.face = frame.face := by
  unfold enterTry
  split <;> rfl

namespace Stack

/-- The faces of all open frames. -/
def face (stack : Stack) : Stack :=
  ⟨stack.root.face, stack.nested.map Frame.face⟩

theorem current_face (stack : Stack) : stack.face.current = stack.current.face := by
  cases hn : stack.nested <;> simp [face, current, hn]

theorem receiverIn_face (frames : List Frame) :
    receiverIn (frames.map Frame.face) = receiverIn frames := by
  induction frames with
  | nil => rfl
  | cons frame rest ih => rw [List.map_cons, receiverIn, receiverIn, ih]; rfl

theorem face_modifyCurrent (stack : Stack) {f : Frame → Frame}
    (h : (f stack.current).face = stack.current.face) :
    (stack.modifyCurrent f).face = stack.face := by
  unfold current at h
  cases hn : stack.nested <;> simp_all [face, modifyCurrent]

theorem face_modifyRoot (stack : Stack) {f : Frame → Frame}
    (h : (f stack.root).face = stack.root.face) : (stack.modifyRoot f).face = stack.face := by
  simp [face, modifyRoot, h]

theorem face_addFieldIn (attr : String) (frames : List Frame) :
    (addFieldIn attr frames).map Frame.face = addFieldIn attr (frames.map Frame.face) := by
  induction frames with
  | nil => rfl
  | cons frame rest ih =>
    have hkind : frame.face.kind = frame.kind := rfl
    rw [List.map_cons, addFieldIn, addFieldIn, hkind]
    split
    · rfl
    · rw [List.map_cons, ih]

theorem face_addClassField (stack : Stack) (attr : String) :
    (stack.addClassField attr).face = stack.face.addClassField attr :=
  congrArg (Stack.mk stack.root.face) (face_addFieldIn attr stack.nested)

end Stack

end PythonToCSharp.Scope

namespace PythonToCSharp.Lowering

open Scope (Frame Stack)

variable {α β : Type}

/-- What a state holds beside places, findings and names. -/
def State.face (s : State) : State :=
  { scopes := s.scopes.face, usings := s.usings, types := s.types, classNames := s.classNames }

/-- The step adds no directive, no class and no field. -/
def Quiet (step : Render α) : Prop :=
  ∀ s, (step s).2.face = s.face

namespace Quiet

theorem pure (a : α) : Quiet (Pure.pure a : Render α) :=
  fun _ => rfl

theorem bind {x : Render α} {f : α → Render β} (hx : Quiet x) (hf : ∀ a, Quiet (f a)) :
    Quiet (x >>= f) :=
  fun s => (hf (x s).1 (x s).2).trans (hx s)

theorem forM {step : α → Render PUnit} (h : ∀ a, Quiet (step a)) (items : List α) :
    Quiet (items.forM step) := by
  induction items with
  | nil => exact pure _
  | cons item rest ih => exact bind (h item) fun _ => ih

theorem modifyFrame {f : Frame → Frame} (h : ∀ frame : Frame, (f frame).face = frame.face) :
    Quiet (modifyFrame f) :=
  fun s => congrArg (fun scopes => { s.face with scopes := scopes })
    (s.scopes.face_modifyCurrent (h _))

theorem modifyRoot {f : Frame → Frame} (h : ∀ frame : Frame, (f frame).face = frame.face) :
    Quiet (modifyRoot f) :=
  fun s => congrArg (fun scopes => { s.face with scopes := scopes })
    (s.scopes.face_modifyRoot (h _))

theorem moveTo (span : Python.Span) : Quiet (moveTo span) :=
  fun _ => rfl

theorem enterTry : Quiet enterTry :=
  fun s => congrArg (fun scopes => { s.face with scopes := scopes })
    (s.scopes.face_modifyCurrent (f := fun _ => s.scopes.current.enterTry.2)
      s.scopes.current.face_enterTry)

theorem fresh (base : String) : Quiet (fresh base) :=
  fun s => congrArg (fun scopes => { s.face with scopes := scopes })
    (s.scopes.face_modifyCurrent (f := fun _ => (s.scopes.current.fresh base).2) rfl)

end Quiet

theorem Composed.quiet {x : Render α} (h : Composed x) : Quiet x := by
  induction h with
  | pure a => exact .pure a
  | bind _ _ ihx ihf => exact .bind ihx ihf
  | get => exact fun _ => rfl
  | report severity kind span message => exact fun _ => rfl
  | record name => exact .modifyFrame fun frame => frame.face_record name
  | fresh base => exact .fresh base

/-! ## Declarations of scope -/

theorem quiet_lowerGlobal (ids : List String) : Quiet (lowerGlobal ids) := by
  refine .bind (.forM (fun id => ?_) ids) fun _ => .pure _
  exact .bind (.modifyFrame fun _ => rfl) fun _ => .modifyRoot fun frame => frame.face_record id

theorem quiet_lowerNonlocal (ids : List String) : Quiet (lowerNonlocal ids) := by
  refine .bind (.forM (fun id => ?_) ids) fun _ => .pure _
  exact .modifyFrame fun _ => rfl

end PythonToCSharp.Lowering
