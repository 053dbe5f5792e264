import PythonToCSharp.Lowering.Statement
import PythonToCSharp.Proofs.Scope.Growth

/-!
What single steps of the lowering do to its state, and how that carries over to steps built from
them.

`KeepsPlace` is said of steps that lower expressions: the place, the classes around and the open
frames stay, up to the growth of frames. `Succeeds` is said of steps that lower statements: no fault
arises, and the same is kept apart from the place, which a clause or a case may move.
-/

namespace PythonToCSharp.Lowering

open Scope (Frame Stack)

variable {α β : Type}

/-- What may become of a state: the classes around stay and the open frames grow. -/
structure State.Grows (before after : State) : Prop where
  classNames : after.classNames = before.classNames
  scopes : before.scopes.Grows after.scopes

namespace State.Grows

theorem refl (s : State) : s.Grows s := ⟨rfl, .refl _⟩

theorem trans {a b c : State} (h : a.Grows b) (h' : b.Grows c) : a.Grows c :=
  ⟨h'.classNames.trans h.classNames, h.scopes.trans h'.scopes⟩

end State.Grows

/-! ## Steps for expressions -/

/-- The step stays at its place and only lets frames grow. -/
def KeepsPlace (step : Render α) : Prop :=
  ∀ s, s.Grows (step s).2 ∧ (step s).2.span = s.span

namespace KeepsPlace

theorem pure (a : α) : KeepsPlace (Pure.pure a : Render α) :=
  fun s => ⟨.refl s, rfl⟩

theorem bind {x : Render α} {f : α → Render β} (hx : KeepsPlace x) (hf : ∀ a, KeepsPlace (f a)) :
    KeepsPlace (x >>= f) := by
  intro s
  obtain ⟨hg, hs⟩ := hx s
  obtain ⟨hg', hs'⟩ := hf (x s).1 (x s).2
  exact ⟨hg.trans hg', hs'.trans hs⟩

theorem map {x : Render α} (hx : KeepsPlace x) (f : α → β) :
    KeepsPlace (do return f (← x)) :=
  bind hx fun _ => pure _

theorem ite {c : Prop} [Decidable c] {x y : Render α} (hx : KeepsPlace x) (hy : KeepsPlace y) :
    KeepsPlace (if c then x else y) := by
  split
  · exact hx
  · exact hy

theorem get : KeepsPlace (MonadState.get : Render State) :=
  fun s => ⟨.refl s, rfl⟩

theorem forM {step : α → Render PUnit} (h : ∀ a, KeepsPlace (step a)) (items : List α) :
    KeepsPlace (items.forM step) := by
  induction items with
  | nil => exact pure _
  | cons item rest ih => exact bind (h item) fun _ => ih

end KeepsPlace

theorem keepsPlace_report (severity : Severity) (kind : String) (span : Python.Span)
    (message : String) : KeepsPlace (report severity kind span message) :=
  fun s => ⟨⟨rfl, .refl s.scopes⟩, rfl⟩

theorem keepsPlace_warn (kind message : String) : KeepsPlace (warn kind message) :=
  .bind .get fun _ => keepsPlace_report _ _ _ _

theorem keepsPlace_note (kind message : String) : KeepsPlace (note kind message) :=
  .bind .get fun _ => keepsPlace_report _ _ _ _

theorem keepsPlace_currentFrame : KeepsPlace currentFrame :=
  .map .get _

theorem keepsPlace_receiver : KeepsPlace receiver :=
  .map .get _

theorem keepsPlace_modifyFrame {f : Frame → Frame} (h : ∀ frame : Frame, frame.Grows (f frame)) :
    KeepsPlace (modifyFrame f) :=
  fun s => ⟨⟨rfl, s.scopes.grows_modifyCurrent (h _)⟩, rfl⟩

theorem keepsPlace_modifyRoot {f : Frame → Frame} (h : ∀ frame : Frame, frame.Grows (f frame)) :
    KeepsPlace (modifyRoot f) :=
  fun s => ⟨⟨rfl, s.scopes.grows_modifyRoot (h _)⟩, rfl⟩

theorem keepsPlace_fresh (base : String) : KeepsPlace (fresh base) := by
  intro s
  refine ⟨⟨rfl, ?_⟩, rfl⟩
  exact s.scopes.grows_modifyCurrent (f := fun _ => (s.scopes.current.fresh base).2)
    (s.scopes.current.grows_fresh base)

theorem keepsPlace_addUsing (directive : String) : KeepsPlace (addUsing directive) :=
  fun s => ⟨⟨rfl, .refl s.scopes⟩, rfl⟩

theorem keepsPlace_defer (type : CSharp.Class) : KeepsPlace (defer type) :=
  fun s => ⟨⟨rfl, .refl s.scopes⟩, rfl⟩

/-! ## Steps for statements -/

theorem bind_run {x : Lower α} {f : α → Lower β} {s middle : State} {a : α}
    (h : x s = .ok (a, middle)) : (x >>= f) s = f a middle := by
  show (x s >>= fun p => f p.1 p.2) = _
  rw [h]
  rfl

/-- A step has one outcome. -/
theorem run_unique {x : Lower α} {s after after' : State} {a a' : α} (h : x s = .ok (a, after))
    (h' : x s = .ok (a', after')) : a = a' ∧ after = after' :=
  Prod.mk.inj (Except.ok.inj (h.symm.trans h'))

theorem lift_bind_run (x : Render α) (f : α → Lower β) (s : State) :
    ((liftM x : Lower α) >>= f) s = f (x s).1 (x s).2 := rfl

/-- The step ends without a fault and only lets frames grow. -/
def Succeeds (step : Lower α) : Prop :=
  ∀ s, ∃ result after, step s = .ok (result, after) ∧ s.Grows after

namespace Succeeds

theorem pure (a : α) : Succeeds (Pure.pure a : Lower α) :=
  fun s => ⟨a, s, rfl, .refl s⟩

theorem bind {x : Lower α} {f : α → Lower β} (hx : Succeeds x) (hf : ∀ a, Succeeds (f a)) :
    Succeeds (x >>= f) := by
  intro s
  obtain ⟨a, middle, hrun, hg⟩ := hx s
  obtain ⟨b, after, hrun', hg'⟩ := hf a middle
  exact ⟨b, after, (bind_run hrun).trans hrun', hg.trans hg'⟩

theorem map {x : Lower α} (hx : Succeeds x) (f : α → β) : Succeeds (do return f (← x)) :=
  bind hx fun _ => pure _

theorem lift {x : Render α} (hx : KeepsPlace x) : Succeeds (liftM x : Lower α) :=
  fun s => ⟨(x s).1, (x s).2, rfl, (hx s).1⟩

theorem get : Succeeds (MonadState.get : Lower State) :=
  fun s => ⟨s, s, rfl, .refl s⟩

theorem ite {c : Prop} [Decidable c] {x y : Lower α} (hx : Succeeds x) (hy : Succeeds y) :
    Succeeds (if c then x else y) := by
  split
  · exact hx
  · exact hy

theorem moveTo (span : Python.Span) : Succeeds (liftM (Lowering.moveTo span) : Lower Unit) :=
  fun s => ⟨(), { s with span := span }, rfl, rfl, .refl s.scopes⟩

theorem optionally {step : Option (Lower α)} (h : ∀ x ∈ step, Succeeds x) :
    Succeeds (Lowering.optionally step) := by
  cases step with
  | none => exact pure _
  | some x => exact map (h x rfl) _

/-- A step inside something that `break` leaves. -/
theorem breakable {target : Scope.BreakTarget} {step : Lower α} (h : Succeeds step) :
    Succeeds (Lowering.breakable target step) := by
  intro s
  obtain ⟨a, middle, hrun, hg⟩ :=
    h { s with scopes := s.scopes.modifyCurrent (·.pushBreakTarget target) }
  refine ⟨a, { middle with scopes := middle.scopes.modifyCurrent (·.popBreakTarget) }, ?_,
    hg.classNames, ?_⟩
  · rw [Lowering.breakable, lift_bind_run]
    exact bind_run hrun
  · have hs : (s.scopes.modifyCurrent (·.pushBreakTarget target)).Grows middle.scopes := hg.scopes
    exact hs.bracket fun _ hf => hf.popBreakTarget

end Succeeds

/-! ## Scopes -/

/-- Opening a scope puts a frame on top. -/
theorem enterScope_run {kind : Scope.Kind} (h : kind ≠ .module_) (s : State) :
    enterScope kind s = .ok (⟨s.scopes.depth + 1⟩,
      { s with scopes := { s.scopes with nested := { kind := kind } :: s.scopes.nested } }) := by
  have hget : (get : Lower State) s = .ok (s, s) := rfl
  have henter : s.scopes.enter kind =
      .ok (⟨s.scopes.depth + 1⟩,
        { s.scopes with nested := { kind := kind } :: s.scopes.nested }) := by
    simp [Stack.enter, h, Stack.depth]
  rw [enterScope, bind_run hget, henter]
  rfl

/-- The handle of the topmost scope closes it. -/
theorem exitScope_run {handle : Scope.Handle} {s : State} {frame : Frame} {rest : List Frame}
    (hd : handle.depth = s.scopes.depth) (hn : s.scopes.nested = frame :: rest) :
    exitScope handle s = .ok (frame, { s with scopes := { s.scopes with nested := rest } }) := by
  have hget : (get : Lower State) s = .ok (s, s) := rfl
  have hexit : s.scopes.exit handle = .ok (frame, { s.scopes with nested := rest }) := by
    simp [Stack.exit, hd, hn]
  rw [exitScope, bind_run hget, hexit]
  rfl

/-- A scope of its own is opened for the step and closed behind it. -/
theorem inScope_run {kind : Scope.Kind} (hk : kind ≠ .module_) {step : Lower α} {s after : State}
    {a : α} {top : Frame} {rest : List Frame}
    (hrun : step { s with scopes :=
  { s.scopes with nested := { kind := kind } :: s.scopes.nested } } =
      .ok (a, after)) (hn : after.scopes.nested = top :: rest)
      (hl : rest.length = s.scopes.nested.length) :
    inScope kind step s = .ok ((a, top),
      { after with scopes := { after.scopes with nested := rest } }) := by
  have hd : s.scopes.depth + 1 = after.scopes.depth := by simp [Stack.depth, hn, hl]
  rw [inScope, bind_run (enterScope_run hk s), bind_run hrun, bind_run (exitScope_run hd hn)]
  rfl

/-- The step succeeds under a frame of its own, which it may set up first: the frames below only
grow. -/
def SucceedsWithin (step : Lower α) : Prop :=
  ∀ (s : State) (frame : Frame), ∃ result after top rest,
    step { s with scopes := { s.scopes with nested := frame :: s.scopes.nested } } =
      .ok (result, after) ∧ after.classNames = s.classNames ∧ after.scopes.nested = top :: rest ∧
      s.scopes.Grows { after.scopes with nested := rest }

/-- A scope of its own is closed by the handle that opened it. -/
theorem Succeeds.inScope {kind : Scope.Kind} {step : Lower α} (hk : kind ≠ .module_)
    (h : SucceedsWithin step) : Succeeds (Lowering.inScope kind step) := by
  intro s
  obtain ⟨a, after, top, rest, hrun, hc, hn, hg⟩ := h s { kind := kind }
  exact ⟨(a, top), _, inScope_run hk hrun hn hg.nested.length_eq.symm, hc, hg⟩

/-- A step at a place runs as it does there, and the place of before comes back. -/
theorem located_eq {step : Lower α} {span : Python.Span} {s after : State} {a : α}
    (h : step { s with span := span } = .ok (a, after)) :
    located span step s = .ok (a, { after with span := s.span }) :=
  bind_run (f := fun a => do Lowering.moveTo s.span; return a) h

/-- A step at a place comes back to the place of before. -/
theorem located_run {step : Lower α} (h : Succeeds step) (span : Python.Span) (s : State) :
    ∃ result after, located span step s = .ok (result, after) ∧ s.Grows after ∧
      after.span = s.span := by
  obtain ⟨a, middle, hrun, hg⟩ := h { s with span := span }
  exact ⟨a, { middle with span := s.span }, located_eq hrun, ⟨hg.classNames, hg.scopes⟩, rfl⟩

end PythonToCSharp.Lowering
