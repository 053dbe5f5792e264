import PythonToCSharp.Proofs.Scope.Growth
import PythonToCSharp.Proofs.Scope.Operations

/-!
One frame in use. The search for a free name counts candidates on from where it stopped before; it
ends, and no name is found twice, whatever the bases. The flag of a `try` statement depends only on
how many are open around it.

A `Usage` is a frame with all that it has given out. Every operation keeps `Usage.Sound`, and what
is said of whole sequences of operations is read off it.
-/

namespace PythonToCSharp.Scope

namespace Frame

/-! ## Names that are counted -/

variable (frame : Frame)

/-- The search skips taken candidates only, and so no more of them than there are taken names. -/
theorem fresh_skips_taken (base : String) : ∃ skipped ≤ frame.taken.length,
    (∀ i < skipped, candidate base (frame.count base + i) ∈ frame.taken) ∧
    (frame.fresh base).1 = candidate base (frame.count base + skipped) ∧
    (frame.fresh base).2.count base = frame.count base + skipped + 1 := by
  obtain ⟨i, hi, hfree⟩ := exists_free frame.taken base (frame.count base)
  have hle := firstFree_le (Nat.le_add_right _ i) hfree
  obtain ⟨skipped, hskipped⟩ :=
    Nat.exists_eq_add_of_le (le_firstFree frame.taken base (frame.count base))
  refine ⟨skipped, ?_, fun j hj => ?_, congrArg (candidate base) hskipped, ?_⟩
  · rw [List.mem_range] at hi
    omega
  · by_contra hj'
    have := firstFree_le (Nat.le_add_right _ j) hj'
    omega
  · rw [count_fresh_self, hskipped]

/-- The name is a candidate that the frame has counted. -/
def Counted (frame : Frame) (name : String) : Prop :=
  ∃ base ∈ bases, ∃ n < frame.count base, name = candidate base n

theorem Counted.mono {before after : Frame} {name : String} (h : before.Counted name)
    (hcounts : ∀ base, before.count base ≤ after.count base) : after.Counted name := by
  obtain ⟨base, hbase, n, hn, rfl⟩ := h
  exact ⟨base, hbase, n, Nat.lt_of_lt_of_le hn (hcounts base), rfl⟩

theorem counted_fresh {base : String} (hb : base ∈ bases) :
    (frame.fresh base).2.Counted (frame.fresh base).1 :=
  ⟨base, hb, _, by rw [count_fresh_self]; exact Nat.lt_succ_self _, rfl⟩

/-- A name that is handed out was not counted before, for no base. -/
theorem not_counted_fresh {base : String} (hb : base ∈ bases) :
    ¬frame.Counted (frame.fresh base).1 := by
  rintro ⟨other, hother, n, hn, heq⟩
  obtain ⟨rfl, rfl⟩ := base_eq_of_candidate_eq hb hother heq
  have hle := le_firstFree frame.taken base (frame.count base)
  omega

/-- Entering a `try` gives the flag of the depth, or a new one if there is none. -/
theorem enterTry_cases : (∃ flag, frame.flags[frame.tryDepth]? = some flag ∧
      frame.enterTry = (flag, { frame with tryDepth := frame.tryDepth + 1 })) ∨
    (frame.flags.length ≤ frame.tryDepth ∧
      frame.enterTry = ((frame.fresh flagBase).1, { (frame.fresh flagBase).2 with
        flags := frame.flags ++ [(frame.fresh flagBase).1], tryDepth := frame.tryDepth + 1 })) := by
  unfold enterTry
  split
  next flag hflag => exact .inl ⟨flag, hflag, rfl⟩
  next hnone => exact .inr ⟨List.getElem?_eq_none_iff.1 hnone, rfl⟩

end Frame

/-! ## Frames in use -/

/-- A frame in use, with what it has given out. -/
structure Usage where
  frame : Frame
  /-- The names that were asked for by their base, in order. -/
  drawn : List String := []
  /-- The `try` statements that were entered, in order: how many were open around each, and the flag
  that it got. -/
  entered : List (Nat × String) := []
  /-- The flags of the `try` statements that are open, the innermost first. -/
  openFlags : List String := []

namespace Usage

open Scope.Frame (bases flagBase Counted)

/-- The usage after an operation. Leaving a `try` where none is open does nothing. -/
def step (use : Usage) (op : Operation) : Usage :=
  let next := { use with frame := use.frame.apply op }
  match op with
  | .fresh base => { next with drawn := use.drawn ++ [(use.frame.fresh base).1] }
  | .enterTry =>
    { next with
      entered := use.entered ++ [(use.openFlags.length, use.frame.enterTry.1)]
      openFlags := use.frame.enterTry.1 :: use.openFlags }
  | .exitTry => { next with openFlags := use.openFlags.tail }
  | _ => next

/-- The usage after operations, from the left. -/
def run (use : Usage) (ops : List Operation) : Usage :=
  ops.foldl step use

/-- The flags that were given out, each once, in the order in which they were given out first. -/
def returned (use : Usage) : List String :=
  (use.entered.map Prod.snd).eraseDups

/-- What holds of a frame in use. All that it has given out is counted, and no two names are equal.
The flags of the open `try` statements are the first ones of the frame, the outermost first. -/
structure Sound (use : Usage) : Prop where
  counted : ∀ name ∈ use.drawn ++ use.frame.flags, use.frame.Counted name
  nodup : (use.drawn ++ use.frame.flags).Nodup
  depth : use.frame.tryDepth = use.openFlags.length
  opened : use.openFlags.reverse <+: use.frame.flags
  entered : ∀ entry ∈ use.entered, use.frame.flags[entry.1]? = some entry.2
  returned : use.frame.flags = use.returned

theorem sound_start (kind : Kind) : Sound { frame := { kind } } := by
  constructor <;> simp [Usage.returned]

namespace Sound

variable {use : Usage} (h : use.Sound)
include h

/-- A change of the frame that touches neither its flags nor its counts. -/
theorem changed {frame : Frame} (hcounts : frame.counts = use.frame.counts)
    (hflags : frame.flags = use.frame.flags)
    (hdepth : frame.tryDepth = use.frame.tryDepth) : Sound { use with frame } where
  counted name hname := by
    have hbefore := h.counted name (hflags ▸ hname)
    simpa only [Counted, Frame.count, hcounts] using hbefore
  nodup := by simpa only [hflags] using h.nodup
  depth := hdepth.trans h.depth
  opened := by simpa only [hflags] using h.opened
  entered := by simpa only [hflags] using h.entered
  returned := hflags.trans h.returned

/-- What is found now has not been given out before. -/
theorem fresh_notMem {base : String} (hb : base ∈ bases) :
    (use.frame.fresh base).1 ∉ use.drawn ++ use.frame.flags :=
  fun hmem => use.frame.not_counted_fresh hb (h.counted _ hmem)

theorem fresh {base : String} (hb : base ∈ bases) : (use.step (.fresh base)).Sound := by
  have hperm : (use.drawn ++ [(use.frame.fresh base).1] ++ use.frame.flags).Perm
      ((use.frame.fresh base).1 :: (use.drawn ++ use.frame.flags)) := by
    simp
  refine ⟨fun name hname => ?_, ?_, h.depth, h.opened, h.entered, h.returned⟩
  · rcases List.mem_cons.1 (hperm.mem_iff.1 hname) with rfl | hold
    · exact use.frame.counted_fresh hb
    · exact (h.counted name hold).mono (use.frame.count_le_count_fresh base)
  · exact hperm.nodup_iff.2 (List.nodup_cons.2 ⟨h.fresh_notMem hb, h.nodup⟩)

/-- A `try` is entered and gets the flag that lies at its depth afterwards. -/
theorem given {frame : Frame} {flag : String}
    (hflags : frame.flags = insertNew use.frame.flags flag)
    (hat : frame.flags[use.frame.tryDepth]? = some flag)
    (hdepth : frame.tryDepth = use.frame.tryDepth + 1)
    (hcounted : ∀ name ∈ use.drawn ++ frame.flags, frame.Counted name)
    (hnodup : (use.drawn ++ frame.flags).Nodup) :
    Sound ⟨frame, use.drawn, use.entered ++ [(use.openFlags.length, flag)],
      flag :: use.openFlags⟩ := by
  have hgrows : use.frame.flags <+: frame.flags := hflags ▸ Frame.prefix_insertNew _ _
  refine ⟨hcounted, hnodup, by simp [hdepth, h.depth], ?_, fun entry hentry => ?_, ?_⟩
  · obtain ⟨later, hlater⟩ := h.opened.trans hgrows
    rw [h.depth, ← hlater, List.getElem?_append_right (by simp)] at hat
    obtain ⟨rest, rfl⟩ : ∃ rest, later = flag :: rest := by
      simpa [← List.head?_eq_getElem?, List.head?_eq_some_iff] using hat
    exact ⟨rest, by simpa using hlater⟩
  · rcases List.mem_append.1 hentry with hold | hlast
    · have hbefore := h.entered entry hold
      obtain ⟨later, hlater⟩ := hgrows
      rw [← hlater, List.getElem?_append_left (List.getElem?_eq_some_iff.1 hbefore).1]
      exact hbefore
    · rw [List.mem_singleton.1 hlast, ← h.depth]
      exact hat
  · rw [hflags, h.returned, Usage.returned, Usage.returned, List.map_append, List.map_singleton,
      Frame.eraseDups_concat]

theorem enterTry : (use.step .enterTry).Sound := by
  have hb : flagBase ∈ bases := by decide
  rcases use.frame.enterTry_cases with ⟨flag, hflag, hrun⟩ | ⟨hlength, hrun⟩
  · simp only [step, Frame.apply, hrun]
    refine h.given ?_ hflag rfl h.counted h.nodup
    simp [insertNew, List.mem_of_getElem? hflag]
  · -- The depth is never past the flags, so that the new one lies right there.
    have hdepth : use.frame.tryDepth = use.frame.flags.length := by
      have hle := h.opened.length_le
      rw [List.length_reverse, ← h.depth] at hle
      omega
    have hnew := h.fresh_notMem hb
    have hout : (use.frame.fresh flagBase).1 ∉ use.frame.flags :=
      fun hmem => hnew (List.mem_append_right _ hmem)
    simp only [step, Frame.apply, hrun]
    refine h.given (by simp [insertNew, hout]) (by simp [hdepth]) rfl (fun name hname => ?_) ?_
    · rw [← List.append_assoc] at hname
      rcases List.mem_append.1 hname with hold | hlast
      · exact (h.counted name hold).mono (use.frame.count_le_count_fresh flagBase)
      · rw [List.mem_singleton.1 hlast]
        exact use.frame.counted_fresh hb
    · rw [← List.append_assoc, ← List.concat_eq_append, List.nodup_concat]
      exact ⟨hnew, h.nodup⟩

theorem exitTry : (use.step .exitTry).Sound := by
  have hprefix : use.openFlags.tail.reverse <+: use.openFlags.reverse := by
    rw [← List.dropLast_reverse]
    exact List.dropLast_prefix _
  exact ⟨h.counted, h.nodup, by simp [step, Frame.apply, Frame.exitTry,
    h.depth], hprefix.trans h.opened, h.entered, h.returned⟩

theorem step {op : Operation} (hb : ∀ base, op = .fresh base → base ∈ bases) :
    (use.step op).Sound := by
  cases op with
  | record name =>
    simp only [Usage.step, Frame.apply, Frame.record]
    split <;> exact h.changed rfl rfl rfl
  | recordHinted name hint =>
    simp only [Usage.step, Frame.apply, Frame.recordHinted, Frame.record]
    split <;> exact h.changed rfl rfl rfl
  | exclude name => exact h.changed rfl rfl rfl
  | reserve names => exact h.changed rfl rfl rfl
  | fresh base => exact h.fresh (hb base rfl)
  | enterTry => exact h.enterTry
  | exitTry => exact h.exitTry

theorem run {ops : List Operation} (hb : ∀ base, .fresh base ∈ ops → base ∈ bases) :
    (use.run ops).Sound := by
  induction ops generalizing use with
  | nil => exact h
  | cons op rest ih =>
    refine ih (h.step ?_) fun base hbase => hb base (List.mem_cons_of_mem _ hbase)
    rintro base rfl
    exact hb base List.mem_cons_self

theorem nodup_flags : use.frame.flags.Nodup :=
  (List.nodup_append.1 h.nodup).2.1

/-- Two `try` statements got one flag exactly when equally many were open around them. -/
theorem flag_eq_iff {first second : Nat × String} (hfirst : first ∈ use.entered)
    (hsecond : second ∈ use.entered) :
    first.2 = second.2 ↔ first.1 = second.1 := by
  have hat := h.entered first hfirst
  rw [← Option.some.injEq, ← hat, ← h.entered second hsecond]
  exact List.getElem?_inj (List.getElem?_eq_some_iff.1 hat).1 h.nodup_flags

end Sound

/-! ## Whole sequences of operations -/

/-- Names and flags of one frame, after any operations that ask for names of the known bases. The
search for a free name ends behind the taken candidates that it skips, with a name that the frame
neither declares nor excludes nor sets aside. All names that were asked for and all flags that were
given out differ from each other. The depth of the frame is the number of open `try` statements;
each that was entered got the flag that lies at its depth, so that two of them share a flag exactly
when they stand equally deep, and those that are open have different ones. The line of the flags
lists all that were given out, each once. -/
theorem generated_free_and_distinct {kind : Kind} {ops : List Operation} {use : Usage}
    (hb : ∀ base, .fresh base ∈ ops → base ∈ bases) (h : run { frame := { kind } } ops = use) :
    (∀ base, (∃ skipped ≤ use.frame.taken.length,
        (∀ i < skipped, Frame.candidate base (use.frame.count base + i) ∈ use.frame.taken) ∧
        (use.frame.fresh base).1 = Frame.candidate base (use.frame.count base + skipped) ∧
        (use.frame.fresh base).2.count base = use.frame.count base + skipped + 1) ∧
      (use.frame.fresh base).1 ∉ use.frame.names ∧ (use.frame.fresh base).1 ∉ use.frame.excluded ∧
      (use.frame.fresh base).1 ∉ use.frame.reserved) ∧
    (use.drawn ++ use.returned).Nodup ∧
    use.frame.tryDepth = use.openFlags.length ∧
    (∀ entry ∈ use.entered, use.frame.flags[entry.1]? = some entry.2) ∧
    (∀ first ∈ use.entered, ∀ second ∈ use.entered, first.2 = second.2 ↔ first.1 = second.1) ∧
    use.openFlags.Nodup ∧
    ∀ lead, use.frame.flagLine lead =
      if use.returned = [] then none else some
        (lead ++ "bool " ++ Text.join ", " use.returned ++ ";") := by
  have hs : use.Sound := h ▸ (sound_start kind).run hb
  refine ⟨fun base => ⟨use.frame.fresh_skips_taken base, ?_⟩, hs.returned ▸ hs.nodup,
    hs.depth, hs.entered,
    fun first hfirst second hsecond => hs.flag_eq_iff hfirst hsecond, ?_, fun lead => ?_⟩
  · have hfree := use.frame.fresh_notMem_taken base
    simpa only [Frame.taken, List.mem_append, not_or] using hfree
  · exact List.nodup_reverse.1 (hs.nodup_flags.sublist hs.opened.sublist)
  · have htype : lead ++ "bool" ++ " " = lead ++ "bool " := String.append_assoc
    rw [Frame.flagLine, hs.returned, CSharp.flagLine, CSharp.declarationLine, htype]
    simp only [List.isEmpty_iff]

/-- A body that binds `_it` and `noException` itself leaves more `try` statements than it enters,
and asks for a name of the base of the flags while one is open. -/
def crowdedOps : List Operation :=
  [.reserve ["_it", "noException"], .record "noBreak1", .fresh "_it", .exitTry, .enterTry,
    .fresh "noException",
    .enterTry, .exitTry, .exitTry, .exitTry, .enterTry, .fresh "noBreak",
      .fresh "noBreak", .enterTry]

/-- The second pair of nested `try` statements has the flags of the first. -/
theorem crowdedOps_distinct : ∃ use, run { frame := { kind := .function } } crowdedOps = use ∧
    (∀ base, .fresh base ∈ crowdedOps → base ∈ bases) ∧
    use.drawn = ["_it1", "noException2", "noBreak", "noBreak2"] ∧
    use.entered = [(0, "noException1"), (1, "noException3"), (0, "noException1"),
      (1, "noException3")] ∧
    (use.drawn ++ use.returned).Nodup ∧ use.openFlags.Nodup ∧
    use.frame.flagLine "static " = some "static bool noException1, noException3;" := by
  have hb : ∀ base, .fresh base ∈ crowdedOps → base ∈ bases := by
    intro base hbase
    simp only [crowdedOps, List.mem_cons, Operation.fresh.injEq, reduceCtorEq, List.not_mem_nil,
      or_false, false_or] at hbase
    rcases hbase with rfl | rfl | rfl | rfl <;> decide
  obtain ⟨-, hnodup, -, -, -, hopen, hline⟩ :=
    @generated_free_and_distinct .function crowdedOps _ hb rfl
  have hreturned : (run { frame := { kind := .function } } crowdedOps).returned =
      ["noException1", "noException3"] := by decide
  refine ⟨_, rfl, hb, by decide, by decide, hnodup, hopen, ?_⟩
  rw [hline, hreturned]
  decide

end Usage

end PythonToCSharp.Scope
