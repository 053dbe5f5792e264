import Mathlib.Data.List.Forall2
import PythonToCSharp.Proofs.Scope.Generated
import PythonToCSharp.Scope.Stack

/-!
How open frames change while the statements of a body are lowered. A frame keeps its kind, its
receiver, its generator mark, what a `break` leaves, the depth of open `try` statements and the
names set aside for the body; its completion flags and the counts of its generated names only grow,
and the flags stay fresh. Variables, exclusions and fields are free.

`Frame.Grows` says so of one frame, `Stack.Grows` of all open ones.
-/

namespace PythonToCSharp.Scope

/-! ## One frame -/

namespace Frame

/-- What may become of an open frame. -/
structure Grows (before after : Frame) : Prop where
  kind : after.kind = before.kind
  receiver : after.receiver = before.receiver
  isGenerator : after.isGenerator = before.isGenerator
  breakTargets : after.breakTargets = before.breakTargets
  tryDepth : after.tryDepth = before.tryDepth
  reserved : after.reserved = before.reserved
  flags : before.flags <+: after.flags
  counts : ∀ base, before.count base ≤ after.count base
  flagsFresh : before.FlagsFresh → after.FlagsFresh

/-- What of a frame belongs to the constructs that are open around a statement. -/
def shape (frame : Frame) : Kind × Option String × Bool × List BreakTarget × Nat :=
  (frame.kind, frame.receiver, frame.isGenerator, frame.breakTargets, frame.tryDepth)

namespace Grows

theorem refl (frame : Frame) : frame.Grows frame :=
  ⟨rfl, rfl, rfl, rfl, rfl, rfl, List.prefix_refl _, fun _ => Nat.le_refl _, id⟩

theorem trans {a b c : Frame} (h : a.Grows b) (h' : b.Grows c) : a.Grows c where
  kind := h'.kind.trans h.kind
  receiver := h'.receiver.trans h.receiver
  isGenerator := h'.isGenerator.trans h.isGenerator
  breakTargets := h'.breakTargets.trans h.breakTargets
  tryDepth := h'.tryDepth.trans h.tryDepth
  reserved := h'.reserved.trans h.reserved
  flags := h.flags.trans h'.flags
  counts base := Nat.le_trans (h.counts base) (h'.counts base)
  flagsFresh := h'.flagsFresh ∘ h.flagsFresh

/-- The frame keeps its shape. -/
theorem shape_eq {before after : Frame} (h : before.Grows after) : after.shape = before.shape := by
  simp only [shape, h.kind, h.receiver, h.isGenerator, h.breakTargets, h.tryDepth]

end Grows

variable (frame : Frame)

theorem grows_record (name : String) : frame.Grows (frame.record name) := by
  unfold record
  split
  · exact ⟨rfl, rfl, rfl, rfl, rfl, rfl, List.prefix_refl _, fun _ => Nat.le_refl _,
    fun h => h.of_flags_eq rfl rfl (Nat.le_refl _)⟩
  · exact Grows.refl frame

theorem grows_recordHinted (name hint : String) : frame.Grows (frame.recordHinted name hint) := by
  have h := frame.grows_record name
  refine ⟨h.kind, h.receiver, h.isGenerator, h.breakTargets, h.tryDepth, h.reserved,
    h.flags, h.counts, ?_⟩
  intro hf
  exact (h.flagsFresh hf).of_flags_eq rfl rfl (Nat.le_refl _)

theorem grows_exclude (name : String) : frame.Grows (frame.exclude name) :=
  ⟨rfl, rfl, rfl, rfl, rfl, rfl, List.prefix_refl _, fun _ => Nat.le_refl _,
    fun h => h.of_flags_eq rfl rfl (Nat.le_refl _)⟩

theorem grows_addField (name : String) : frame.Grows (frame.addField name) :=
  ⟨rfl, rfl, rfl, rfl, rfl, rfl, List.prefix_refl _, fun _ => Nat.le_refl _,
    fun h => h.of_flags_eq rfl rfl (Nat.le_refl _)⟩

/-! ### Generated names -/

theorem lookup_filter_ne {base other : String} (h : other ≠ base) (counts : List (String × Nat)) :
    (counts.filter fun entry => entry.1 != base).lookup other = counts.lookup other := by
  induction counts with
  | nil => rfl
  | cons entry rest ih =>
    obtain ⟨key, n⟩ := entry
    by_cases hk : key = base
    · subst hk
      have hb : (other == key) = false := by simpa using h
      simp [List.lookup_cons, hb, ih]
    · have hb : (key != base) = true := by simpa using hk
      simp only [List.filter_cons, hb, if_true, List.lookup_cons, ih]

theorem le_firstFree (taken : List String) (base : String) (start : Nat) :
    start ≤ firstFree taken base start :=
  Nat.le_add_right _ _

/-- Handing out a name counts past it, for its own base. -/
theorem count_fresh_self (base : String) :
    (frame.fresh base).2.count base = firstFree frame.taken base (frame.count base) + 1 := by
  simp [fresh, count]

/-- Handing out a name leaves the counts of the other bases alone. -/
theorem count_fresh_ne {base other : String} (h : other ≠ base) :
    (frame.fresh base).2.count other = frame.count other := by
  have hb : (other == base) = false := by simpa using h
  simp [fresh, count, List.lookup_cons, hb, lookup_filter_ne h]

theorem count_le_count_fresh (base other : String) :
    frame.count other ≤ (frame.fresh base).2.count other := by
  by_cases h : other = base
  · subst h
    rw [count_fresh_self]
    exact Nat.le_succ_of_le (le_firstFree _ _ _)
  · exact Nat.le_of_eq (count_fresh_ne frame h).symm

theorem grows_fresh (base : String) : frame.Grows (frame.fresh base).2 :=
  ⟨rfl, rfl, rfl, rfl, rfl, rfl, List.prefix_refl _, frame.count_le_count_fresh base,
    fun h => h.of_flags_eq rfl rfl (frame.count_le_count_fresh base flagBase)⟩

/-! ### Brackets

What is opened in a frame is closed again: whatever the frame has grown to in between, it has grown
from the frame before the opening. -/

theorem Grows.popBreakTarget {before after : Frame} {target : BreakTarget}
    (h : (before.pushBreakTarget target).Grows after) : before.Grows after.popBreakTarget where
  kind := h.kind
  receiver := h.receiver
  isGenerator := h.isGenerator
  breakTargets := by simp [Frame.popBreakTarget, h.breakTargets, pushBreakTarget]
  tryDepth := h.tryDepth
  reserved := h.reserved
  flags := h.flags
  counts := h.counts
  flagsFresh hf :=
    (h.flagsFresh (hf.of_flags_eq rfl rfl (Nat.le_refl _))).of_flags_eq rfl rfl (Nat.le_refl _)

/-- A frame with one more `try` statement open. -/
def inTry (frame : Frame) : Frame :=
  { frame with tryDepth := frame.tryDepth + 1 }

/-- A flag that is made for a deeper `try` differs from those before it. -/
theorem FlagsFresh.append_fresh {frame : Frame} (h : frame.FlagsFresh) :
    FlagsFresh { (frame.fresh flagBase).2 with
      flags := frame.flags ++ [(frame.fresh flagBase).1], tryDepth := frame.tryDepth + 1 } where
  nodup := by
    refine List.nodup_append.2 ⟨h.nodup, List.nodup_singleton _, ?_⟩
    rintro flag hflag other ho rfl
    obtain ⟨n, hn, hname⟩ := h.counted flag hflag
    have hnew : flag = candidate flagBase (firstFree frame.taken flagBase (frame.count flagBase)) :=
      List.mem_singleton.1 ho
    have heq := candidate_injective (hname.symm.trans hnew)
    have hle := le_firstFree frame.taken flagBase (frame.count flagBase)
    omega
  reserved := by
    intro flag hflag
    rcases List.mem_append.1 hflag with hold | hnew
    · exact h.reserved flag hold
    · rw [List.mem_singleton.1 hnew]
      exact frame.fresh_notMem_reserved flagBase
  counted := by
    intro flag hflag
    have hcount := frame.count_fresh_self flagBase
    rcases List.mem_append.1 hflag with hold | hnew
    · obtain ⟨n, hn, hname⟩ := h.counted flag hold
      exact ⟨n, Nat.lt_of_lt_of_le hn (frame.count_le_count_fresh flagBase flagBase), hname⟩
    · refine ⟨firstFree frame.taken flagBase (frame.count flagBase), ?_, List.mem_singleton.1 hnew⟩
      show _ < (frame.fresh flagBase).2.count flagBase
      omega

theorem grows_enterTry : frame.inTry.Grows frame.enterTry.2 := by
  unfold enterTry
  split
  · exact Grows.refl _
  · refine ⟨rfl, rfl, rfl, rfl, rfl, rfl, List.prefix_append _ _,
      frame.count_le_count_fresh flagBase, ?_⟩
    intro h
    have hf : frame.FlagsFresh := h.of_flags_eq rfl rfl (Nat.le_refl _)
    exact hf.append_fresh

theorem Grows.exitTry {before after : Frame} (h : before.inTry.Grows after) :
    before.Grows after.exitTry where
  kind := h.kind
  receiver := h.receiver
  isGenerator := h.isGenerator
  breakTargets := h.breakTargets
  tryDepth := by simp [Frame.exitTry, h.tryDepth, inTry]
  reserved := h.reserved
  flags := h.flags
  counts := h.counts
  flagsFresh hf :=
    (h.flagsFresh (hf.of_flags_eq rfl rfl (Nat.le_refl _))).of_flags_eq rfl rfl (Nat.le_refl _)

end Frame

/-! ## All open frames -/

namespace Stack

/-- The open frames, the innermost first and that of the module last. -/
def frames (stack : Stack) : List Frame :=
  stack.nested ++ [stack.root]

/-- What may become of the open frames: each grows, and none comes or goes. -/
structure Grows (before after : Stack) : Prop where
  root : before.root.Grows after.root
  nested : List.Forall₂ Frame.Grows before.nested after.nested

namespace Grows

theorem refl (stack : Stack) : stack.Grows stack :=
  ⟨.refl _, List.forall₂_same.mpr fun frame _ => .refl frame⟩

theorem trans {a b c : Stack} (h : a.Grows b) (h' : b.Grows c) : a.Grows c := by
  refine ⟨h.root.trans h'.root, ?_⟩
  have hn := h.nested
  have hn' := h'.nested
  generalize a.nested = xs, b.nested = ys, c.nested = zs at hn hn'
  induction hn generalizing zs with
  | nil => cases hn'; exact .nil
  | cons hx _ ih =>
    cases hn' with
    | cons hy hrest => exact .cons (hx.trans hy) (ih _ hrest)

theorem depth {before after : Stack} (h : before.Grows after) : after.depth = before.depth := by
  simp [Stack.depth, h.nested.length_eq]

theorem map_shape {before after : Stack} (h : before.Grows after) :
    after.frames.map Frame.shape = before.frames.map Frame.shape := by
  have hn : after.nested.map Frame.shape = before.nested.map Frame.shape := by
    have hn := h.nested
    generalize before.nested = xs, after.nested = ys at hn
    induction hn with
    | nil => rfl
    | cons hx _ ih => simp only [List.map_cons, hx.shape_eq, ih]
  simp only [Stack.frames, List.map_append, List.map_cons, List.map_nil, hn, h.root.shape_eq]

theorem current {before after : Stack} (h : before.Grows after) :
    before.current.Grows after.current := by
  obtain ⟨hr, hn⟩ := h
  unfold Stack.current
  cases hn' : before.nested <;> rw [hn'] at hn
  · cases ha : after.nested <;> rw [ha] at hn
    · exact hr
    · cases hn
  · cases ha : after.nested <;> rw [ha] at hn
    · cases hn
    · exact (List.forall₂_cons.mp hn).1

end Grows

theorem current_modifyCurrent (stack : Stack) (f : Frame → Frame) :
    (stack.modifyCurrent f).current = f stack.current := by
  unfold modifyCurrent Stack.current
  cases stack.nested with
  | nil => rfl
  | cons frame rest => rfl

/-- The receiver stays when the innermost frame keeps its kind and its own receiver. -/
theorem receiver_modifyCurrent (stack : Stack) {f : Frame → Frame}
    (hk : (f stack.current).kind = stack.current.kind)
    (hr : (f stack.current).receiver = stack.current.receiver) :
    (stack.modifyCurrent f).receiver = stack.receiver := by
  unfold modifyCurrent Stack.receiver
  unfold Stack.current at hk hr
  cases hn : stack.nested with
  | nil => rfl
  | cons frame rest =>
    rw [hn] at hk hr
    simp only [List.headD_cons] at hk hr
    simp only [receiverIn, hk, hr]

/-- A change of the innermost frame that lets it grow lets all frames grow. -/
theorem grows_modifyCurrent (stack : Stack) {f : Frame → Frame}
    (h : stack.current.Grows (f stack.current)) : stack.Grows (stack.modifyCurrent f) := by
  unfold modifyCurrent
  unfold Stack.current at h
  cases hn : stack.nested with
  | nil =>
    rw [hn] at h
    exact ⟨h, by simp [hn]⟩
  | cons frame rest =>
    rw [hn] at h
    refine ⟨.refl _, ?_⟩
    rw [hn]
    exact .cons h (List.forall₂_same.mpr fun frame _ => .refl frame)

/-- A change of the innermost frame, undone after the frames have grown. -/
theorem Grows.bracket {before after : Stack} {enter leave : Frame → Frame}
    (h : (before.modifyCurrent enter).Grows after)
    (hf : ∀ frame, (enter before.current).Grows frame → before.current.Grows (leave frame)) :
    before.Grows (after.modifyCurrent leave) := by
  obtain ⟨hr, hn⟩ := h
  unfold modifyCurrent at hr hn ⊢
  unfold Stack.current at hf
  cases hb : before.nested with
  | nil =>
    simp only [hb] at hr hn hf
    cases ha : after.nested with
    | nil => exact ⟨hf _ hr, by simp [hb]⟩
    | cons => rw [ha] at hn; cases hn
  | cons frame rest =>
    simp only [hb] at hr hn hf
    cases ha : after.nested with
    | nil => rw [ha] at hn; cases hn
    | cons frame' rest' =>
      rw [ha] at hn
      obtain ⟨hhead, htail⟩ := List.forall₂_cons.mp hn
      refine ⟨hr, ?_⟩
      rw [hb]
      exact .cons (hf _ hhead) htail

theorem grows_modifyRoot (stack : Stack) {f : Frame → Frame} (h : stack.root.Grows (f stack.root)) :
    stack.Grows (stack.modifyRoot f) :=
  ⟨h, List.forall₂_same.mpr fun frame _ => .refl frame⟩

theorem grows_addFieldIn (name : String) (frames : List Frame) :
    List.Forall₂ Frame.Grows frames (addFieldIn name frames) := by
  induction frames with
  | nil => exact .nil
  | cons frame rest ih =>
    unfold addFieldIn
    split
    · exact .cons (frame.grows_addField name) (List.forall₂_same.mpr fun frame _ => .refl frame)
    · exact .cons (.refl frame) ih

theorem grows_addClassField (stack : Stack) (name : String) :
    stack.Grows (stack.addClassField name) :=
  ⟨.refl _, grows_addFieldIn name stack.nested⟩

/-- Taking the topmost frame off again. -/
theorem Grows.popFrame {before after : Stack} {frame : Frame}
    (h : ({ before with nested := frame :: before.nested } : Stack).Grows after) :
    ∃ top rest, after.nested = top :: rest ∧ frame.Grows top ∧
      before.Grows { after with nested := rest } := by
  obtain ⟨hr, hn⟩ := h
  cases ha : after.nested with
  | nil => rw [ha] at hn; cases hn
  | cons top rest =>
    rw [ha] at hn
    obtain ⟨hhead, htail⟩ := List.forall₂_cons.mp hn
    exact ⟨top, rest, rfl, hhead, hr, htail⟩

/-- The receiver is looked up in what frames keep. -/
theorem Grows.receiverEq {before after : Stack} (h : before.Grows after) :
    after.receiver = before.receiver := by
  unfold Stack.receiver
  have hn := h.nested
  generalize before.nested = xs, after.nested = ys at hn
  induction hn with
  | nil => rfl
  | cons hx _ ih => simp only [receiverIn, hx.kind, hx.receiver, ih]

end Stack

end PythonToCSharp.Scope
