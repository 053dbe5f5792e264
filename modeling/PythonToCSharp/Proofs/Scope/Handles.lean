import PythonToCSharp.Proofs.Scope.Operations
import PythonToCSharp.Scope.Stack

/-!
Which frame a handle closes. A handle holds nothing but a depth, and yet it stands for one frame:
while no handle is used twice, the scope that a handle closes is the one that was opened for it,
whatever has been opened, closed out of order or left open in between.

A `Session` is a stack in use, with the handles that were given out and the story of every open
frame. Every call keeps `Session.Sound`, and what is said of whole sessions is read off it.
-/

namespace PythonToCSharp.Scope

/-! ## Changes of a frame -/

/-- A change of one frame. -/
inductive Change where
  | names (op : Operation)
  | addField (name : String)
  | pushBreakTarget (target : BreakTarget)
  | popBreakTarget
  | setReceiver (name : String)
  | setGenerator
  deriving DecidableEq, Repr

namespace Frame

/-- The frame after a change. -/
def change (frame : Frame) : Change → Frame
  | .names op => frame.apply op
  | .addField name => frame.addField name
  | .pushBreakTarget target => frame.pushBreakTarget target
  | .popBreakTarget => frame.popBreakTarget
  | .setReceiver name => frame.setReceiver name
  | .setGenerator => frame.setGenerator

theorem kind_record (frame : Frame) (name : String) : (frame.record name).kind = frame.kind := by
  unfold record
  split <;> rfl

theorem kind_enterTry (frame : Frame) : frame.enterTry.2.kind = frame.kind := by
  unfold enterTry
  split <;> rfl

theorem kind_apply (frame : Frame) (op : Operation) : (frame.apply op).kind = frame.kind := by
  cases op with
  | record name => exact frame.kind_record name
  | recordHinted name hint => exact frame.kind_record name
  | enterTry => exact frame.kind_enterTry
  | _ => rfl

/-- No change makes a frame belong to another kind of body. -/
theorem kind_change (frame : Frame) (change : Change) :
    (frame.change change).kind = frame.kind := by
  cases change with
  | names op => exact frame.kind_apply op
  | _ => rfl

end Frame

/-- The story of a frame: which `enter` opened it, counted from zero, for what kind of body, and the
changes made to it since. -/
structure Life where
  number : Nat
  kind : Kind
  changes : List Change := []
  deriving DecidableEq, Repr

namespace Life

/-- The frame that a story ends with. -/
def frame (life : Life) : Frame :=
  life.changes.foldl Frame.change { kind := life.kind }

/-- The story with one more change. -/
def add (life : Life) (change : Change) : Life :=
  { life with changes := life.changes ++ [change] }

@[simp] theorem number_add (life : Life) (change : Change) :
    (life.add change).number = life.number := rfl

@[simp] theorem kind_add (life : Life) (change : Change) : (life.add change).kind = life.kind := rfl

theorem frame_add (life : Life) (change : Change) :
    (life.add change).frame = life.frame.change change := by
  simp [frame, add]

theorem kind_foldl_change (frame : Frame) (changes : List Change) :
    (changes.foldl Frame.change frame).kind = frame.kind := by
  induction changes generalizing frame with
  | nil => rfl
  | cons change rest ih => rw [List.foldl_cons, ih, Frame.kind_change]

theorem kind_frame (life : Life) : life.frame.kind = life.kind :=
  kind_foldl_change _ _

/-- The stories after a field of the innermost class. -/
def addField (name : String) : List Life → List Life
  | [] => []
  | life :: rest =>
      if life.kind = .class_ then life.add (.addField name) :: rest else life :: addField name rest

theorem map_number_addField (name : String) (lives : List Life) :
    (addField name lives).map number = lives.map number := by
  induction lives with
  | nil => rfl
  | cons life rest ih =>
    unfold addField
    split
    · simp
    · simp [ih]

theorem map_kind_addField (name : String) (lives : List Life) :
    (addField name lives).map kind = lives.map kind := by
  induction lives with
  | nil => rfl
  | cons life rest ih =>
    unfold addField
    split
    · simp
    · simp [ih]

theorem map_frame_addField (name : String) (lives : List Life) :
    (addField name lives).map frame = Stack.addFieldIn name (lives.map frame) := by
  induction lives with
  | nil => rfl
  | cons life rest ih =>
    rw [addField, List.map_cons, Stack.addFieldIn, kind_frame]
    split
    · rw [List.map_cons, frame_add, Frame.change]
    · rw [List.map_cons, ih]

end Life

/-! ## Stacks in use -/

/-- A call to a stack of scopes. An `exit` names the handle that it uses by the number of the
`enter` that gave it. -/
inductive Call where
  | enter (kind : Kind)
  | exit (number : Nat)
  | change (change : Change)
  | changeRoot (change : Change)
  | addClassField (name : String)
  deriving DecidableEq, Repr

/-- A stack in use. -/
structure Session where
  stack : Stack := {}
  /-- What each `enter` that succeeded has given, in order; a handle that was used is gone. -/
  handles : List (Option Handle) := []
  /-- The stories of the frames above that of the module, the innermost first. -/
  lives : List Life := []

namespace Session

/-- The handle with a number, if it was given out and has not been used. -/
def unused? (session : Session) (number : Nat) : Option Handle :=
  session.handles[number]?.join

/-- Opens a scope. -/
def enter (session : Session) (kind : Kind) : Session :=
  match session.stack.enter kind with
  | .error _ => session
  | .ok (handle, stack) =>
    { stack
      handles := session.handles ++ [some handle]
      lives := ⟨session.handles.length, kind, []⟩ :: session.lives }

/-- Uses a handle. It is gone afterwards, also when the scope cannot be closed with it. -/
def exit (session : Session) (number : Nat) : Session :=
  match session.unused? number with
  | none => session
  | some handle =>
    let handles := session.handles.set number none
    match session.stack.exit handle with
    | .error _ => { session with handles }
    | .ok (_, stack) => { stack, handles, lives := session.lives.tail }

/-- Changes the innermost frame. -/
def change (session : Session) (change : Change) : Session :=
  { session with
    stack := session.stack.modifyCurrent (·.change change)
    lives := session.lives.modifyHead (·.add change) }

/-- The session after a call. -/
def step (session : Session) : Call → Session
  | .enter kind => session.enter kind
  | .exit number => session.exit number
  | .change change => session.change change
  | .changeRoot change => { session with stack := session.stack.modifyRoot (·.change change) }
  | .addClassField name =>
    { session with stack :=
    session.stack.addClassField name, lives := Life.addField name session.lives }

/-- The session after calls, from the left. -/
def run (session : Session) (calls : List Call) : Session :=
  calls.foldl step session

/-- Why a call is refused, if it is. -/
def refusal? (session : Session) : Call → Option Fault
  | .enter kind =>
    match session.stack.enter kind with
    | .error fault => some fault
    | .ok _ => none
  | .exit number => do
    let handle ← session.unused? number
    match session.stack.exit handle with
    | .error fault => some fault
    | .ok _ => none
  | _ => none

/-- What holds of a stack in use. Stories are numbered in the order in which their frames were
opened. An unused handle holds the depth of the frame that was opened for it: as many stories lie
below that frame's as the depth says. -/
structure Sound (session : Session) : Prop where
  frames : session.stack.nested = session.lives.map Life.frame
  root : session.stack.root.kind = .module_
  kinds : .module_ ∉ session.lives.map Life.kind
  numbered : (session.handles.length :: session.lives.map Life.number).Pairwise fun later earlier =>
    earlier < later
  held : ∀ number handle, session.unused? number = some handle → ∃ above below,
    session.lives.map Life.number = above ++ number :: below ∧ handle.depth = below.length + 2

theorem sound_start : Sound {} := by
  constructor <;> simp [unused?]

variable {session : Session}

/-! ### Which handles are unused -/

theorem unused?_enter {kind : Kind} {handle : Handle} {stack : Stack}
    (h : session.stack.enter kind = .ok (handle, stack)) (number : Nat) :
    (session.enter kind).unused? number =
      if number = session.handles.length then some handle else session.unused? number := by
  simp only [unused?, enter, h]
  by_cases hlt : number < session.handles.length
  · have hne : number ≠ session.handles.length := by omega
    simp [List.getElem?_append_left hlt, hne]
  · by_cases heq : number = session.handles.length
    · simp [heq]
    · have hold : session.handles[number]? = none := List.getElem?_eq_none (by omega)
      have hnew : (session.handles ++ [some handle])[number]? = none :=
        List.getElem?_eq_none (by simp; omega)
      simp [hold, hnew, heq]

theorem handles_exit {number : Nat} {handle : Handle} (hu : session.unused? number = some handle) :
    (session.exit number).handles = session.handles.set number none := by
  simp only [exit, hu]
  split <;> rfl

theorem unused?_exit {number : Nat} {handle : Handle} (hu : session.unused? number = some handle)
    (other : Nat) :
    (session.exit number).unused? other = if other =
      number then none else session.unused? other := by
  simp only [unused?, handles_exit hu]
  by_cases heq : other = number
  · subst heq
    by_cases hlt : other < session.handles.length <;> simp [hlt]
  · simp [heq, List.getElem?_set_ne (Ne.symm heq)]

/-! ### What an exit does -/

namespace Sound

theorem depth (h : session.Sound) : session.stack.depth = session.lives.length + 1 := by
  simp [Stack.depth, h.frames]

/-- An unused handle fits the stack exactly when the innermost frame is the one that was opened for
it. -/
theorem fits_iff (h : session.Sound) {number : Nat} {handle : Handle}
    (hu : session.unused? number = some handle) :
    handle.depth = session.stack.depth ↔ (session.lives.map Life.number).head? = some number := by
  obtain ⟨above, below, hlives, hdepth⟩ := h.held number handle hu
  have hlength : session.lives.length = above.length + (below.length + 1) := by
    rw [← List.length_map Life.number, hlives, List.length_append, List.length_cons]
  rw [h.depth, hdepth, hlength, hlives]
  cases above with
  | nil => simp
  | cons top others =>
    have hsorted := (List.pairwise_cons.1 h.numbered).2
    rw [hlives, List.cons_append] at hsorted
    have hlt : number < top := (List.pairwise_cons.1 hsorted).1 number (by simp)
    simp only [List.length_cons, List.cons_append, List.head?_cons, Option.some.injEq]
    omega

/-- An exit gives the innermost frame if it uses the handle that this frame was opened for, and is
refused otherwise. -/
theorem exit_cases (h : session.Sound) {number : Nat} {handle : Handle}
    (hu : session.unused? number = some handle) :
    (∃ life rest, session.lives = life :: rest ∧ life.number = number ∧
      session.stack.exit handle =
        .ok (life.frame, { session.stack with nested := rest.map Life.frame })) ∨
    ((session.lives.map Life.number).head? ≠ some number ∧
      session.stack.exit handle = .error (.mismatch handle.depth session.stack.depth)) := by
  have hfits := h.fits_iff hu
  by_cases htop : (session.lives.map Life.number).head? = some number
  · left
    cases hl : session.lives with
    | nil => simp [hl] at htop
    | cons life rest =>
      have hnested : session.stack.nested = life.frame :: rest.map Life.frame := by
        simp [h.frames, hl]
      exact ⟨life, rest, rfl, by simpa [hl] using htop, by simp [Stack.exit, hfits.2 htop, hnested]⟩
  · right
    have hne : handle.depth ≠ session.stack.depth := fun heq => htop (hfits.1 heq)
    exact ⟨htop, by simp [Stack.exit, hne]⟩

/-! ### Every call keeps what holds -/

/-- Changes of open frames that the stories tell of. -/
theorem changed (h : session.Sound) {stack : Stack} {lives : List Life}
    (hframes : stack.nested = lives.map Life.frame)
    (hroot : stack.root.kind = session.stack.root.kind)
    (hnumbers : lives.map Life.number = session.lives.map Life.number)
    (hkinds : lives.map Life.kind = session.lives.map Life.kind) :
    Sound { session with stack, lives } where
  frames := hframes
  root := hroot.trans h.root
  kinds := by simpa only [hkinds] using h.kinds
  numbered := by simpa only [hnumbers] using h.numbered
  held number handle hu := by simpa only [hnumbers] using h.held number handle hu

theorem change (h : session.Sound) (change : Change) : (session.change change).Sound := by
  have hframes := h.frames
  unfold Session.change Stack.modifyCurrent
  cases hl : session.lives with
  | nil =>
    have hn : session.stack.nested = [] := by simp [hframes, hl]
    rw [hn]
    exact h.changed (by simp) (Frame.kind_change _ _) (by simp [hl]) (by simp [hl])
  | cons life rest =>
    have hn : session.stack.nested = life.frame :: rest.map Life.frame := by simp [hframes, hl]
    rw [hn]
    exact h.changed (by simp [Life.frame_add]) rfl (by simp [hl]) (by simp [hl])

theorem enter (h : session.Sound) (kind : Kind) : (session.enter kind).Sound := by
  by_cases hk : kind = .module_
  · subst hk
    exact h
  -- The new frame lies on top of all others, and its handle holds the new depth.
  have hrun : session.stack.enter kind = .ok (⟨session.lives.length + 2⟩,
      { session.stack with nested := { kind := kind } :: session.stack.nested }) := by
    simp [Stack.enter, hk, Stack.depth, h.frames]
  have hunused := unused?_enter hrun
  constructor
  · simp only [Session.enter, hrun, List.map_cons, h.frames]
    rfl
  · simpa only [Session.enter, hrun] using h.root
  · simpa [Session.enter, hrun, Ne.symm hk] using h.kinds
  · have hlater : ∀ number ∈ session.lives.map Life.number,
      number < session.handles.length + 1 := by
      intro number hmem
      have := (List.pairwise_cons.1 h.numbered).1 number hmem
      omega
    simpa [Session.enter, hrun] using And.intro hlater h.numbered
  · intro number handle hu
    have hlives : (session.enter kind).lives.map Life.number =
        session.handles.length :: session.lives.map Life.number := by simp [Session.enter, hrun]
    rw [hunused] at hu
    rw [hlives]
    split at hu
    next heq =>
      cases hu
      exact ⟨[], session.lives.map Life.number, by simp [heq], by simp⟩
    next =>
      obtain ⟨above, below, hsplit, hdepth⟩ := h.held number handle hu
      exact ⟨session.handles.length :: above, below, by simp [hsplit], hdepth⟩

theorem exit (h : session.Sound) (number : Nat) : (session.exit number).Sound := by
  cases hu : session.unused? number with
  | none => simpa only [Session.exit, hu] using h
  | some handle =>
    have hunused := unused?_exit hu
    rcases h.exit_cases hu with ⟨life, rest, hl, rfl, hrun⟩ | ⟨-, hrun⟩
    · have hexit : session.exit life.number =
          ⟨{ session.stack with nested := rest.map Life.frame },
            session.handles.set life.number none, rest⟩ := by
        simp [Session.exit, hu, hrun, hl]
      have hkinds := h.kinds
      have hnumbered := h.numbered
      rw [hl, List.map_cons] at hkinds hnumbered
      rw [hexit] at hunused ⊢
      refine ⟨rfl, h.root, fun hmem => hkinds (List.mem_cons_of_mem _ hmem), ?_, ?_⟩
      · rw [List.length_set]
        exact hnumbered.sublist (.cons_cons _ (List.sublist_cons_self _ _))
      · -- Another unused handle belongs to a frame further down, which is still there.
        intro other otherHandle hother
        rw [hunused] at hother
        split at hother
        next => cases hother
        next hne =>
          obtain ⟨above, below, hsplit, hdepth⟩ := h.held other otherHandle hother
          rw [hl, List.map_cons] at hsplit
          cases above with
          | nil => exact absurd (List.cons.inj hsplit).1.symm hne
          | cons top others => exact ⟨others, below, (List.cons.inj hsplit).2, hdepth⟩
    · have hexit :
        session.exit number = { session with handles := session.handles.set number none } := by
        simp [Session.exit, hu, hrun]
      rw [hexit] at hunused ⊢
      refine ⟨h.frames, h.root, h.kinds, by simpa using h.numbered, ?_⟩
      intro other otherHandle hother
      rw [hunused] at hother
      split at hother
      next => cases hother
      next => exact h.held other otherHandle hother

theorem step (h : session.Sound) (call : Call) : (session.step call).Sound := by
  cases call with
  | enter kind => exact h.enter kind
  | exit number => exact h.exit number
  | change change => exact h.change change
  | changeRoot change => exact h.changed h.frames (Frame.kind_change _ _) rfl rfl
  | addClassField name =>
    have hframes : (session.stack.addClassField name).nested =
        (Life.addField name session.lives).map Life.frame := by
      simp [Stack.addClassField, h.frames, Life.map_frame_addField]
    exact h.changed hframes rfl (Life.map_number_addField _ _) (Life.map_kind_addField _ _)

theorem run (h : session.Sound) (calls : List Call) : (session.run calls).Sound := by
  induction calls generalizing session with
  | nil => exact h
  | cons call rest ih => exact ih (h.step call)

/-- Two unused handles stand for two frames, and so for two depths. -/
theorem depth_ne (h : session.Sound) {first second : Nat} {handle other : Handle}
    (hne : first ≠ second)
    (hfirst : session.unused? first = some handle) (hsecond : session.unused? second = some other) :
    handle.depth ≠ other.depth := by
  intro heq
  obtain ⟨above, below, hsplit, hdepth⟩ := h.held first handle hfirst
  obtain ⟨above', below', hsplit', hdepth'⟩ := h.held second other hsecond
  have hlength : (first :: below).length = (second :: below').length := by simp; omega
  have htail := (List.append_inj_right' (hsplit.symm.trans hsplit') hlength)
  exact hne (List.cons.inj htail).1

/-- A call that is refused leaves the stack as it is, and never because the stack would drop its
last frame. -/
theorem refused (h : session.Sound) {call : Call} {fault : Fault}
    (hr : session.refusal? call = some fault) :
    (session.step call).stack = session.stack ∧ fault ≠ .underflow := by
  cases call with
  | enter kind =>
    by_cases hk : kind = .module_
    · subst hk
      simp only [refusal?, Stack.enter, if_true, Option.some.injEq] at hr
      subst hr
      exact ⟨rfl, by simp⟩
    · simp [refusal?, Stack.enter, hk] at hr
  | exit number =>
    cases hu : session.unused? number with
    | none => simp [refusal?, hu] at hr
    | some handle =>
      rcases h.exit_cases hu with ⟨life, rest, -, -, hrun⟩ | ⟨-, hrun⟩
      · simp [refusal?, hu, hrun] at hr
      · simp only [refusal?, hu, hrun, Option.bind_eq_bind, Option.bind_some,
          Option.some.injEq] at hr
        subst hr
        exact ⟨by simp [Session.step, Session.exit, hu, hrun], by simp⟩
  | change change => cases hr
  | changeRoot change => cases hr
  | addClassField name => cases hr

end Sound

/-! ## Whole sessions -/

/-- Handles stand for frames, in every session in which none is used twice. An `enter` that succeeds
puts a new frame on the stack, whose story has a number of its own, and gives the handle with that
number. An exit with an unused handle succeeds exactly when the innermost frame is the one with the
number of the handle; it takes that frame off, with all the changes made to it since it was opened,
and nothing else. A call that is refused leaves the stack as it is, and the reason is never that the
stack would drop its last frame. The frame of the module is always there, and it is the only one of
its kind. No two unused handles hold the same depth. -/
theorem handles_identify_frames {session : Session} {calls : List Call}
    (h : Session.run {} calls = session) :
    (∀ kind handle stack, session.stack.enter kind = .ok (handle, stack) → ∃ number,
      (session.step (.enter kind)).unused? number = some handle ∧
      (session.step (.enter kind)).lives = ⟨number, kind, []⟩ :: session.lives ∧
      number ∉ session.lives.map Life.number) ∧
    (∀ number handle, session.unused? number = some handle →
      ((∃ frame stack, session.stack.exit handle = .ok (frame, stack)) ↔
        (session.lives.map Life.number).head? = some number) ∧
      ∀ frame stack, session.stack.exit handle = .ok (frame, stack) → ∃ life rest,
        session.lives = life :: rest ∧ life.number = number ∧ frame = life.frame ∧
        session.stack.nested = frame :: stack.nested ∧ stack.root = session.stack.root ∧
        (session.step (.exit number)).stack = stack ∧ (session.step (.exit number)).lives = rest) ∧
    session.stack.nested = session.lives.map Life.frame ∧
    (∀ call fault, session.refusal? call = some fault →
      (session.step call).stack = session.stack ∧ fault ≠ .underflow) ∧
    1 ≤ session.stack.depth ∧ session.stack.root.kind = .module_ ∧
    (∀ frame ∈ session.stack.nested, frame.kind ≠ .module_) ∧
    ∀ first second handle other, first ≠ second → session.unused? first = some handle →
      session.unused? second = some other → handle.depth ≠ other.depth := by
  have hs : session.Sound := h ▸ sound_start.run calls
  refine ⟨fun kind handle stack hrun => ?_, fun number handle hu => ?_, hs.frames,
    fun call fault => hs.refused,
    Nat.le_add_left _ _, hs.root, fun frame hframe => ?_,
      fun first second handle other => hs.depth_ne⟩
  · refine ⟨session.handles.length, by simp [step, unused?_enter hrun], by simp [step, enter,
      hrun], fun hmem => ?_⟩
    exact Nat.lt_irrefl _ ((List.pairwise_cons.1 hs.numbered).1 _ hmem)
  · rcases hs.exit_cases hu with ⟨life, rest, hl, rfl, hrun⟩ | ⟨hne, hrun⟩
    · refine ⟨by simp [hrun, hl], fun frame stack hout => ?_⟩
      obtain ⟨rfl, rfl⟩ : life.frame = frame ∧ _ = stack := by simpa [hrun] using hout
      refine ⟨life, rest, hl, rfl, rfl, by simp [hs.frames, hl], rfl, ?_, ?_⟩
      · simp [step, exit, hu, hrun]
      · simp [step, exit, hu, hrun, hl]
    · refine ⟨by simpa [hrun] using hne, fun frame stack hout => ?_⟩
      simp [hrun] at hout
  · rw [hs.frames] at hframe
    obtain ⟨life, hlife, rfl⟩ := List.mem_map.1 hframe
    rw [Life.kind_frame]
    intro heq
    exact hs.kinds (heq ▸ List.mem_map_of_mem hlife)

/-- A function is opened and in it a class; the handle of the function is used too early, so that
its frame stays open; the class is closed, and another class comes to stand at its depth. -/
def outOfOrder : List Call :=
  [.enter .function, .enter .class_, .exit 0, .addClassField "size", .exit 1, .enter .class_,
    .change (.names (.record "x")), .addClassField "weight"]

/-- The handle of the second class, which holds the same depth as that of the first, closes the
second one. -/
theorem outOfOrder_identified : ∃ frame stack,
    (Session.run {} outOfOrder).unused? 2 = some ⟨3⟩ ∧
    (Session.run {} outOfOrder).stack.exit ⟨3⟩ = .ok (frame, stack) ∧
    frame = Life.frame ⟨2, .class_, [.names (.record "x"), .addField "weight"]⟩ ∧
      stack.depth = 2 := by
  obtain ⟨-, hexit, -⟩ := @handles_identify_frames _ outOfOrder rfl
  have hu : (Session.run {} outOfOrder).unused? 2 = some ⟨3⟩ := by decide
  have hlives : (Session.run {} outOfOrder).lives =
      [⟨2, .class_, [.names (.record "x"), .addField "weight"]⟩, ⟨0, .function, []⟩] := by decide
  have hdepth : (Session.run {} outOfOrder).stack.nested.length = 2 := by decide
  obtain ⟨hiff, hframe⟩ := hexit 2 ⟨3⟩ hu
  obtain ⟨frame, stack, hrun⟩ := hiff.2 (by rw [hlives]; rfl)
  obtain ⟨life, rest, hl, -, rfl, hnested, -⟩ := hframe frame stack hrun
  obtain rfl := (List.cons.inj (hl.symm.trans hlives)).1
  refine ⟨_, stack, hu, hrun, rfl, ?_⟩
  rw [hnested, List.length_cons] at hdepth
  exact hdepth

end Session

end PythonToCSharp.Scope
