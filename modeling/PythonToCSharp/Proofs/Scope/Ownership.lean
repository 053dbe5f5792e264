import PythonToCSharp.Proofs.Scope.Growth

/-!
Which generated names belong to the part of a body that is lowered while a frame grows: the
completion flags from the current depth on, and the names counted in between. A name that was handed
out before, or the flag of a `try` around, is not among them.
-/

namespace PythonToCSharp.Scope.Frame

/-- The generated names of what is lowered between two moments of a frame. -/
def Owns (before after : Frame) (name : String) : Prop :=
  name ∉ before.reserved ∧
    ((∃ depth, before.tryDepth ≤ depth ∧ after.flags[depth]? = some name) ∨
      ∃ base ∈ bases, ∃ n, before.count base ≤ n ∧ n < after.count base ∧ name = candidate base n)

theorem getElem?_of_prefix {xs ys : List String} (h : xs <+: ys) {i : Nat} {x : String}
    (hx : xs[i]? = some x) : ys[i]? = some x := by
  obtain ⟨zs, rfl⟩ := h
  rw [List.getElem?_append_left (List.getElem?_eq_some_iff.1 hx).1]
  exact hx

namespace Owns

variable {a b c : Frame} {name : String}

/-- What is owned by the first part is owned by the whole. -/
theorem left (h : Owns a b name) (hg : b.Grows c) : Owns a c name := by
  refine ⟨h.1, ?_⟩
  rcases h.2 with ⟨depth, hd, hf⟩ | ⟨base, hb, n, hn, hlt, hname⟩
  · exact .inl ⟨depth, hd, getElem?_of_prefix hg.flags hf⟩
  · exact .inr ⟨base, hb, n, hn, Nat.lt_of_lt_of_le hlt (hg.counts base), hname⟩

/-- What is owned by the second part is owned by the whole. -/
theorem right (hg : a.Grows b) (h : Owns b c name) : Owns a c name := by
  refine ⟨hg.reserved ▸ h.1, ?_⟩
  rcases h.2 with ⟨depth, hd, hf⟩ | ⟨base, hb, n, hn, hlt, hname⟩
  · exact .inl ⟨depth, hg.tryDepth ▸ hd, hf⟩
  · exact .inr ⟨base, hb, n, Nat.le_trans (hg.counts base) hn, hlt, hname⟩

/-- The names of what is lowered one `try` deeper. -/
theorem of_inTry (h : Owns a.inTry b name) : Owns a b name := by
  refine ⟨h.1, ?_⟩
  rcases h.2 with ⟨depth, hd, hf⟩ | hcount
  · have hlt : a.tryDepth + 1 ≤ depth := hd
    exact .inl ⟨depth, by omega, hf⟩
  · exact .inr hcount

end Owns

/-! ## Names that were handed out -/

theorem owns_fresh {frame after : Frame} {base : String} (hb : base ∈ bases)
    (hg : (frame.fresh base).2.Grows after) : Owns frame after (frame.fresh base).1 := by
  refine ⟨frame.fresh_notMem_reserved base, .inr ⟨base, hb, _, le_firstFree _ _ _, ?_, rfl⟩⟩
  have hcount := frame.count_fresh_self base
  have hle := hg.counts base
  omega

/-- A name whose count has been passed is not owned any more, unless as a flag. -/
theorem not_owns_of_counted {before after : Frame} {base : String} (hb : base ∈ bases) {n : Nat}
    (hn : n < before.count base)
    (hflag : ∀ depth, before.tryDepth ≤ depth → after.flags[depth]? ≠ some (candidate base n)) :
    ¬Owns before after (candidate base n) := by
  rintro ⟨-, ⟨depth, hd, hmem⟩ | ⟨other, ho, k, hk, -, hname⟩⟩
  · exact hflag depth hd hmem
  · obtain ⟨rfl, rfl⟩ := base_eq_of_candidate_eq hb ho hname
    omega

theorem not_owns_fresh {frame before after : Frame} {base : String} (hb : base ∈ bases)
    (hne : base ≠ flagBase) (hg : (frame.fresh base).2.Grows before) (hf : after.FlagsFresh) :
    ¬Owns before after (frame.fresh base).1 := by
  refine not_owns_of_counted hb ?_ ?_
  · have hcount := frame.count_fresh_self base
    have hle := hg.counts base
    omega
  · -- the flags have a base of their own
    intro depth _ hmem
    obtain ⟨n, -, hname⟩ := hf.counted _ (List.mem_of_getElem? hmem)
    exact hne (base_eq_of_candidate_eq hb (by decide) hname).1

/-- The flag of a `try` stands at its depth. -/
theorem getElem?_flags_enterTry (frame : Frame) (h : frame.tryDepth ≤ frame.flags.length) :
    frame.enterTry.2.flags[frame.tryDepth]? = some frame.enterTry.1 := by
  unfold enterTry
  split
  · assumption
  · rename_i hnone
    have hlen : frame.tryDepth = frame.flags.length := by
      have hge := List.getElem?_eq_none_iff.1 hnone
      omega
    show (frame.flags ++ [(frame.fresh flagBase).1])[frame.tryDepth]? = _
    rw [hlen, List.getElem?_concat_length]

theorem mem_flags_of_grows_enterTry {frame after : Frame} (h : frame.tryDepth ≤ frame.flags.length)
    (hg : frame.enterTry.2.Grows after) : after.flags[frame.tryDepth]? = some frame.enterTry.1 :=
  getElem?_of_prefix hg.flags (getElem?_flags_enterTry frame h)

theorem owns_enterTry {frame after : Frame} (h : frame.tryDepth ≤ frame.flags.length)
    (hf : after.FlagsFresh) (hg : frame.enterTry.2.Grows after) :
    Owns frame after frame.enterTry.1 := by
  have hflag := mem_flags_of_grows_enterTry h hg
  have hr : after.reserved = frame.reserved := hg.reserved.trans frame.grows_enterTry.reserved
  refine ⟨?_, .inl ⟨frame.tryDepth, Nat.le_refl _, hflag⟩⟩
  rw [← hr]
  exact hf.reserved _ (List.mem_of_getElem? hflag)

/-- The parts of a `try` do not own its flag: the flags inside stand deeper, and new names are
counted on. -/
theorem not_owns_enterTry {frame after : Frame} (h : frame.tryDepth ≤ frame.flags.length)
    (hfresh : frame.FlagsFresh) (hg : frame.enterTry.2.Grows after) :
    ¬Owns frame.enterTry.2 after frame.enterTry.1 := by
  have hentered : frame.enterTry.2.FlagsFresh :=
    frame.grows_enterTry.flagsFresh (hfresh.of_flags_eq rfl rfl (Nat.le_refl _))
  have hflag := mem_flags_of_grows_enterTry h hg
  obtain ⟨n, hn, hname⟩ :=
    hentered.counted _ (List.mem_of_getElem? (getElem?_flags_enterTry frame h))
  rw [hname] at hflag ⊢
  refine not_owns_of_counted (by decide) hn ?_
  intro depth hdepth hsame
  have hlt : frame.tryDepth < after.flags.length := (List.getElem?_eq_some_iff.1 hflag).1
  have heq : frame.tryDepth = depth :=
    (List.getElem?_inj hlt (hg.flagsFresh hentered).nodup).1 (hflag.trans hsame.symm)
  have hinner : frame.enterTry.2.tryDepth = frame.tryDepth + 1 := frame.grows_enterTry.tryDepth
  omega

/-- What is owned is a generated name. -/
theorem Owns.exists_candidate {before after : Frame} {name : String} (h : Owns before after name)
    (hf : after.FlagsFresh) : ∃ base ∈ bases, ∃ n, name = candidate base n := by
  rcases h.2 with ⟨depth, -, hflag⟩ | ⟨base, hb, n, -, -, hname⟩
  · obtain ⟨n, -, hname⟩ := hf.counted name (List.mem_of_getElem? hflag)
    exact ⟨flagBase, by decide, n, hname⟩
  · exact ⟨base, hb, n, hname⟩

/-! ## Names of the source -/

/-- A generated name starts like its base. -/
theorem head?_candidate {base : String} (hb : base ∈ bases) (n : Nat) :
    (candidate base n).toList.head? = base.toList.head? := by
  have hne : ∀ text ∈ bases, text.toList ≠ [] := by decide
  rw [candidate_eq, String.toList_append, List.head?_append_of_ne_nil _ (hne base hb)]

theorem candidate_ne_this {base : String} (hb : base ∈ bases) (n : Nat) :
    candidate base n ≠ "this" := by
  have hstart : ∀ text ∈ bases, text.toList.head? ≠ "this".toList.head? := by decide
  intro heq
  refine hstart base hb ?_
  rw [← head?_candidate hb n, heq]

/-- A generated name that is no name of the source is not spelled like one either. -/
theorem candidate_ne_escapeIdentifier {base id : String} (hb : base ∈ bases) {n : Nat}
    (h : candidate base n ≠ id) : candidate base n ≠ CSharp.escapeIdentifier id := by
  have hstart : ∀ text ∈ bases, text.toList.head? ≠ some '@' := by decide
  unfold CSharp.escapeIdentifier
  split
  · intro heq
    refine hstart base hb ?_
    rw [← head?_candidate hb n, heq, String.toList_append]
    rfl
  · exact h

end PythonToCSharp.Scope.Frame
