import Mathlib.Data.List.Nodup
import Mathlib.Data.List.Perm.Subperm
import PythonToCSharp.Scope.Frame

/-!
Generated names. The candidates of a base are all different, so a free one is found among them, and
it is none of the names that the frame sets aside. A name tells its base, for the bases in use:
names of different bases differ.
-/

namespace PythonToCSharp.Scope.Frame

/-! ## Candidates -/

/-- What stands behind the base of a candidate. -/
def numeral (n : Nat) : String :=
  if n = 0 then "" else toString n

theorem candidate_eq (base : String) (n : Nat) : candidate base n = base ++ numeral n := by
  unfold candidate numeral
  split
  · rw [String.append_empty]
  · rfl

theorem numeral_injective {m n : Nat} (h : numeral m = numeral n) : m = n := by
  unfold numeral at h
  by_cases hm : m = 0 <;> by_cases hn : n = 0
  · omega
  · rw [if_pos hm, if_neg hn, Nat.toString_eq_repr] at h
    exact absurd h.symm Nat.repr_ne_empty
  · rw [if_neg hm, if_pos hn, Nat.toString_eq_repr] at h
    exact absurd h Nat.repr_ne_empty
  · rw [if_neg hm, if_neg hn, Nat.toString_eq_repr, Nat.toString_eq_repr] at h
    have hd : Nat.toDigits 10 m = Nat.toDigits 10 n := by
      rw [← Nat.toList_repr, ← Nat.toList_repr, h]
    rw [← Nat.ofDigitChars_ten_toDigits (n := m), ← Nat.ofDigitChars_ten_toDigits (n := n), hd]

theorem isDigit_of_mem_numeral {n : Nat} {c : Char} (h : c ∈ (numeral n).toList) :
    c.isDigit = true := by
  unfold numeral at h
  split at h
  · simp at h
  · rw [Nat.toString_eq_repr, Nat.toList_repr] at h
    exact Nat.isDigit_of_mem_toDigits (b := 10) (by decide) (by decide) h

theorem candidate_injective {base : String} {m n : Nat} (h : candidate base m = candidate base n) :
    m = n := by
  rw [candidate_eq, candidate_eq] at h
  have hc := congrArg String.toList h
  rw [String.toList_append, String.toList_append] at hc
  exact numeral_injective (String.toList_inj.1 (List.append_cancel_left hc))

/-! ## The search for a free candidate -/

/-- Among one more candidates than there are taken names, one is not taken. -/
theorem exists_free (taken : List String) (base : String) (start : Nat) :
    ∃ i ∈ List.range (taken.length + 1), candidate base (start + i) ∉ taken := by
  by_contra h
  have hall : ∀ i ∈ List.range (taken.length + 1), candidate base (start + i) ∈ taken := by
    intro i hi
    by_contra hfree
    exact h ⟨i, hi, hfree⟩
  let candidates := (List.range (taken.length + 1)).map fun i => candidate base (start + i)
  have hnodup : candidates.Nodup := by
    refine List.Nodup.map ?_ List.nodup_range
    intro i j hij
    have := candidate_injective hij
    omega
  have hsub : candidates ⊆ taken := by
    intro name hname
    obtain ⟨i, hi, rfl⟩ := List.mem_map.1 hname
    exact hall i hi
  have hle : candidates.length ≤ taken.length := (List.subperm_of_subset hnodup hsub).length_le
  simp only [candidates, List.length_map, List.length_range] at hle
  omega

theorem candidate_firstFree_notMem (taken : List String) (base : String) (start : Nat) :
    candidate base (firstFree taken base start) ∉ taken := by
  obtain ⟨i, hi, hfree⟩ := exists_free taken base start
  unfold firstFree
  cases hfind : (List.range (taken.length + 1)).find? fun i =>
      !taken.contains (candidate base (start + i)) with
  | none =>
    have hnone := List.find?_eq_none.1 hfind i hi
    simp only [Bool.not_eq_true, Bool.not_eq_false', List.contains_iff_mem] at hnone
    exact absurd hnone hfree
  | some j =>
    have hj := List.find?_some hfind
    simpa using hj

/-- The search does not go past a free candidate. -/
theorem firstFree_le {taken : List String} {base : String} {start n : Nat} (hle : start ≤ n)
    (hfree : candidate base n ∉ taken) : firstFree taken base start ≤ n := by
  unfold firstFree
  cases hfind : (List.range (taken.length + 1)).find? fun i =>
      !taken.contains (candidate base (start + i)) with
  | none => exact hle
  | some j =>
    by_contra hpast
    rw [Option.getD_some] at hpast
    have hearlier := (List.find?_range_eq_some.1 hfind).2.2 (n - start) (by omega)
    rw [Nat.add_sub_cancel' hle] at hearlier
    exact hfree (by simpa using hearlier)

/-- The search ends at a free candidate if all before it are taken. -/
theorem firstFree_eq {taken : List String} {base : String} {n : Nat}
    (hbefore : ∀ i < n, candidate base i ∈ taken)
    (hfree : candidate base n ∉ taken) : firstFree taken base 0 = n := by
  have hle := firstFree_le (Nat.zero_le n) hfree
  by_contra hne
  exact candidate_firstFree_notMem taken base 0 (hbefore _ (Nat.lt_of_le_of_ne hle hne))

/-- A generated name is no name that the frame declares, excludes or sets aside. -/
theorem fresh_notMem_taken (frame : Frame) (base : String) : (frame.fresh base).1 ∉ frame.taken :=
  candidate_firstFree_notMem _ _ _

theorem fresh_notMem_reserved (frame : Frame) (base : String) :
    (frame.fresh base).1 ∉ frame.reserved := by
  intro h
  refine frame.fresh_notMem_taken base ?_
  simp [taken, h]

/-! ## The base of a generated name -/

/-- The bases of all generated names. -/
def bases : List String := ["noBreak", "loopExecuted", "_it", "_t", "ex", flagBase]

/-- The characters before the digits at the end. -/
def stem (text : String) : List Char :=
  (text.toList.reverse.dropWhile Char.isDigit).reverse

theorem stem_candidate {base : String} (h : base ∈ bases) (n : Nat) :
    stem (candidate base n) = base.toList := by
  have hlast : ∀ text ∈ bases, text.toList.reverse.dropWhile Char.isDigit =
      text.toList.reverse := by
    decide
  have hdigits : ∀ c ∈ (numeral n).toList.reverse, c.isDigit = true := by
    intro c hc
    exact isDigit_of_mem_numeral (List.mem_reverse.1 hc)
  rw [stem, candidate_eq, String.toList_append, List.reverse_append,
    List.dropWhile_append_of_pos hdigits, hlast base h, List.reverse_reverse]

theorem base_eq_of_candidate_eq {base other : String} (hb : base ∈ bases) (ho : other ∈ bases)
    {m n : Nat} (h : candidate base m = candidate other n) : base = other ∧ m = n := by
  have hs : base.toList = other.toList := by
    rw [← stem_candidate hb m, ← stem_candidate ho n, h]
  obtain rfl := String.toList_inj.1 hs
  exact ⟨rfl, candidate_injective h⟩

/-! ## Completion flags -/

/-- The completion flags of a frame differ from each other and from the names set aside, and the
count of their base is past them. -/
structure FlagsFresh (frame : Frame) : Prop where
  nodup : frame.flags.Nodup
  reserved : ∀ flag ∈ frame.flags, flag ∉ frame.reserved
  counted : ∀ flag ∈ frame.flags, ∃ n, n < frame.count flagBase ∧ flag = candidate flagBase n

/-- A frame without flags. -/
theorem flagsFresh_of_nil {frame : Frame} (h : frame.flags = []) : frame.FlagsFresh := by
  constructor <;> simp [h]

/-- The same flags stay fresh while names are counted on. -/
theorem FlagsFresh.of_flags_eq {before after : Frame} (h : before.FlagsFresh)
    (hf : after.flags = before.flags) (hr : after.reserved = before.reserved)
    (hc : before.count flagBase ≤ after.count flagBase) : after.FlagsFresh where
  nodup := hf ▸ h.nodup
  reserved := by
    rw [hf, hr]
    exact h.reserved
  counted := by
    intro flag hflag
    rw [hf] at hflag
    obtain ⟨n, hn, rfl⟩ := h.counted flag hflag
    exact ⟨n, Nat.lt_of_lt_of_le hn hc, rfl⟩

end PythonToCSharp.Scope.Frame
