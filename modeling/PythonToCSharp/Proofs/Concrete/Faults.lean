import PythonToCSharp.Concrete.SyntaxError
import PythonToCSharp.Proofs.Concrete.Preorder

/-!
The faults of a concrete tree: its error nodes and its missing tokens. The parser sets a flag on
every node that has a fault below it. Given that, the walk that skips the nodes without the flag
finds the same syntax errors as one over the whole tree: those of the faults that have no fault
above them.
-/

namespace PythonToCSharp.Concrete

/-- A node is an error or a missing token. -/
def Info.isFault (info : Info) : Bool :=
  info.isMissing || info.isError

/-- The syntax error that a fault gives. -/
def Info.syntaxError (info : Info) : SyntaxError where
  span := info.span
  message := if info.isMissing then "missing `" ++ info.kind ++ "`" else unexpected info.text

namespace Tree

/-- A fault without a fault above it. -/
def outermost (o : List Node × Node) : Bool :=
  o.2.info.isFault && o.1.all fun ancestor => !ancestor.info.isFault

/-- The faults of a tree without a fault above them, in preorder. -/
def outermostFaults (root : Node) : List Node :=
  ((root.occurrences []).filter outermost).map Prod.snd

/-- Every node above a fault has the flag that says so. -/
def Flagged (root : Node) : Prop :=
  ∀ o ∈ root.occurrences [], o.2.info.isFault → ∀ ancestor ∈ o.1, ancestor.info.hasError

instance (root : Node) : Decidable root.Flagged :=
  inferInstanceAs (Decidable
    (∀ o ∈ root.occurrences [], o.2.info.isFault → ∀ ancestor ∈ o.1, ancestor.info.hasError))

variable {t : Node} {above : List Node}

/-- Below a fault, no fault is outermost. -/
theorem filter_outermost_of_fault (h : ∃ ancestor ∈ above, ancestor.info.isFault) :
    (t.occurrences above).filter outermost = [] := by
  obtain ⟨ancestor, hmem, hfault⟩ := h
  rw [List.filter_eq_nil_iff]
  intro o ho houter
  have habove : ancestor ∈ o.1 := (suffix_of_mem_occurrences ho).subset hmem
  simp only [outermost, Bool.and_eq_true, List.all_eq_true] at houter
  simpa [hfault] using houter.2 ancestor habove

/-- Where there is a fault and none above the root, there is an outermost one. -/
theorem exists_outermost (habove : ∀ ancestor ∈ above, ancestor.info.isFault = false)
    (h : ∃ o ∈ t.occurrences above, o.2.info.isFault) : ∃ o ∈ t.occurrences above, outermost o := by
  induction t using induct generalizing above with
  | step t ih =>
    rw [occurrences_eq] at h ⊢
    by_cases hroot : t.info.isFault = true
    · exact ⟨_, List.mem_cons_self, by simpa [outermost, hroot] using habove⟩
    · obtain ⟨o, ho, hfault⟩ := h
      rcases List.mem_cons.1 ho with rfl | ho
      · exact absurd hfault hroot
      · obtain ⟨child, hchild, ho⟩ := List.mem_flatMap.1 ho
        have hcover : ∀ ancestor ∈ t :: above, ancestor.info.isFault = false :=
          List.forall_mem_cons.2 ⟨by simpa using hroot, habove⟩
        obtain ⟨first, hfirst, houter⟩ := ih child hchild hcover ⟨o, ho, hfault⟩
        exact ⟨first, List.mem_cons_of_mem _ (List.mem_flatMap.2 ⟨child, hchild, hfirst⟩), houter⟩

end Tree

theorem syntaxErrorsAll_eq (ts : List Node) : syntaxErrorsAll ts = ts.flatMap syntaxErrors := by
  induction ts with
  | nil => rfl
  | cons t rest ih => rw [syntaxErrorsAll, ih, List.flatMap_cons]

/-- The walk reports a fault and goes no further; elsewhere it goes on if the flag is set. -/
theorem syntaxErrors_eq (t : Node) : syntaxErrors t =
    if t.info.isFault then [t.info.syntaxError]
    else if t.info.hasError then t.children.flatMap syntaxErrors else [] := by
  cases t with
  | node info value children =>
    show syntaxErrors _ = if info.isFault then [info.syntaxError]
      else if info.hasError then children.flatMap syntaxErrors else []
    rw [syntaxErrors, syntaxErrorsAll_eq]
    cases hmissing : info.isMissing <;> cases herror : info.isError <;>
      simp [Info.isFault, Info.syntaxError, hmissing, herror]

/-- The walk below nodes that are no faults finds the outermost faults. -/
theorem syntaxErrors_occurrences {t : Node} {above : List Node}
    (habove : ∀ ancestor ∈ above, ancestor.info.isFault = false)
    (hflags : ∀ o ∈ t.occurrences above, o.2.info.isFault →
      ∀ ancestor ∈ o.1, ancestor.info.hasError) :
    syntaxErrors t = ((t.occurrences above).filter Tree.outermost).map (·.2.info.syntaxError) := by
  induction t using Tree.induct generalizing above with
  | step t ih =>
    rw [Tree.occurrences_eq] at hflags ⊢
    rw [syntaxErrors_eq, List.filter_cons, List.filter_flatMap]
    by_cases hroot : t.info.isFault = true
    · have hself : Tree.outermost (above, t) = true := by
        simpa [Tree.outermost, hroot] using habove
      have hrest : t.children.flatMap
          (fun child => (child.occurrences (t :: above)).filter Tree.outermost) = [] :=
        List.flatMap_eq_nil_iff.2 fun child _ =>
          Tree.filter_outermost_of_fault ⟨t, List.mem_cons_self, hroot⟩
      rw [if_pos hroot, if_pos hself, hrest]
      rfl
    · have hself : ¬ Tree.outermost (above, t) = true := by simp [Tree.outermost, hroot]
      have hcover : ∀ ancestor ∈ t :: above, ancestor.info.isFault = false :=
        List.forall_mem_cons.2 ⟨by simpa using hroot, habove⟩
      have hchildren : ∀ child ∈ t.children, ∀ o ∈ child.occurrences (t :: above),
          o.2.info.isFault → ∀ ancestor ∈ o.1, ancestor.info.hasError :=
        fun child hmem o ho =>
          hflags o (List.mem_cons_of_mem _ (List.mem_flatMap.2 ⟨child, hmem, ho⟩))
      rw [if_neg hroot, if_neg hself, List.map_flatMap]
      by_cases hflag : t.info.hasError = true
      · rw [if_pos hflag]
        exact List.flatMap_congr fun child hmem => ih child hmem hcover (hchildren child hmem)
      · -- the walk stops here, but a fault below this node would have its flag set
        rw [if_neg hflag, eq_comm, List.flatMap_eq_nil_iff]
        intro child hmem
        rw [List.map_eq_nil_iff, List.filter_eq_nil_iff]
        intro o ho houter
        have hfault : o.2.info.isFault = true := (Bool.and_eq_true_iff.1 houter).1
        have habove : t ∈ o.1 := (Tree.suffix_of_mem_occurrences ho).subset List.mem_cons_self
        exact hflag (hchildren child hmem o ho hfault t habove)

/-- The syntax errors of a tree are those of its outermost faults. -/
theorem syntaxErrors_eq_outermostFaults {root : Node} (h : root.Flagged) :
    syntaxErrors root = root.outermostFaults.map (·.info.syntaxError) := by
  rw [syntaxErrors_occurrences (by simp) h, Tree.outermostFaults, List.map_map]
  rfl

theorem outermostFaults_eq_nil_iff {root : Node} :
    root.outermostFaults = [] ↔ ∀ node ∈ root.preorder, node.info.isFault = false := by
  rw [Tree.outermostFaults, List.map_eq_nil_iff, List.filter_eq_nil_iff, Tree.preorder,
    List.forall_mem_map]
  constructor
  · intro hnone o ho
    by_contra hfault
    obtain ⟨first, hfirst, houter⟩ := Tree.exists_outermost (by simp) ⟨o, ho, by simpa using hfault⟩
    exact hnone first hfirst houter
  · intro hnone o ho houter
    simp [Tree.outermost, hnone o ho] at houter

end PythonToCSharp.Concrete
