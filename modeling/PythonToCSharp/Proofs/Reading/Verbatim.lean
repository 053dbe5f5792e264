import PythonToCSharp.Proofs.Reading.Nodes
import PythonToCSharp.Proofs.Reading.Outcome

/-!
The text that readers keep.

A comment, and a node without a form of its own, become statements that hold source text. Where such
a statement comes from is traced back through the readers: its text is that of the node or of a
named node below it. Of the statements that have a form, only `from __future__ import` is read as a
comment, with all its text.
-/

namespace PythonToCSharp

namespace Python

/-- The expression is text that is kept as it is written. -/
def Expr.isUnsupported : Expr → Bool
  | .unsupported _ _ _ => true
  | _ => false

/-- The statement is a comment or text that is kept as it is written. -/
def StmtKind.isVerbatim : StmtKind → Bool
  | .comment _ => true
  | .unsupported _ _ => true
  | _ => false

end Python

namespace Reading

open Python Concrete

/-! ## Readers that keep nothing -/

/-- What is found, if something is, does not satisfy the test. -/
def Avoids {α : Type} (test : α → Bool) (found : Option α) : Prop :=
  ∀ a ∈ found, test a = false

namespace Avoids

variable {α β : Type} {test : α → Bool}

theorem none : Avoids test Option.none :=
  fun _ h => (nomatch h)

theorem some {a : α} (h : test a = false) : Avoids test (Option.some a) := by
  rintro _ ⟨⟩
  exact h

theorem bind {x : Option β} {f : β → Option α} (h : ∀ b, Avoids test (f b)) :
    Avoids test (x >>= f) := by
  intro a ha
  obtain ⟨b, -, hb⟩ := Option.bind_eq_some_iff.1 ha
  exact h b a hb

theorem map {x : Option β} {f : β → α} (h : ∀ b, test (f b) = false) : Avoids test (x.map f) := by
  intro a ha
  obtain ⟨b, -, rfl⟩ := Option.map_eq_some_iff.1 ha
  exact h b

end Avoids

variable {info : Info} {children : List ReadTree}

section Statements

theorem avoids_readAssignment : Avoids StmtKind.isVerbatim (readAssignment children) := by
  refine .bind fun target => ?_
  split
  · exact .bind fun _ => .bind fun _ => .some rfl
  · exact .bind fun _ => .bind fun _ => .some rfl

theorem avoids_readAugmented : Avoids StmtKind.isVerbatim (readAugmented children) :=
  .bind fun _ => .bind fun _ => .bind fun _ => .bind fun _ => .some rfl

theorem avoids_readIf : Avoids StmtKind.isVerbatim (readIf children) :=
  .bind fun _ => .bind fun _ => .some rfl

theorem avoids_readTry : Avoids StmtKind.isVerbatim (readTry children) :=
  .bind fun _ => .bind fun _ => .some rfl

theorem avoids_readWith : Avoids StmtKind.isVerbatim (readWith children) :=
  .bind fun _ => .bind fun _ => .some rfl

theorem avoids_readMatch : Avoids StmtKind.isVerbatim (readMatch children) := by
  unfold readMatch
  dsimp only
  split
  · exact .none
  · exact .bind fun _ => .bind fun _ => .some rfl

theorem avoids_readFunction (decorators : List Expr) :
    Avoids StmtKind.isVerbatim (readFunction children decorators) :=
  .bind fun _ => .bind fun _ => .bind fun _ => .bind fun _ => .some rfl

theorem avoids_readClass (decorators : List Expr) :
    Avoids StmtKind.isVerbatim (readClass children decorators) :=
  .bind fun _ => .bind fun _ => .bind fun _ => .some rfl

theorem avoids_readDecorated : Avoids StmtKind.isVerbatim (readDecorated children) := by
  refine .bind fun decorators => .bind fun definition => ?_
  split
  · exact avoids_readFunction decorators
  · exact avoids_readClass decorators
  · exact .none

theorem avoids_readDelete : Avoids StmtKind.isVerbatim (readDelete children) := by
  refine .bind fun target => ?_
  split <;> exact .bind fun _ => .some rfl

theorem avoids_readAssert : Avoids StmtKind.isVerbatim (readAssert children) := by
  unfold readAssert
  split
  · exact .none
  · exact .bind fun _ => .bind fun _ => .some rfl

/-- Text that is kept as it is written, as the named children of a node have it or as the node
itself has it. -/
def KeptBelow (expr : Option Expr) (children : List ReadTree) (kind : StmtKind) : Prop :=
  ∃ name text span, kind = .unsupported name text ∧ (expr = some (.unsupported name text span) ∨
    ∃ child ∈ parts children, asExpr child = some (.unsupported name text span))

theorem eq_unsupported_of_bareExpression {e : Expr} (h : (bareExpression e).isVerbatim = true) :
    ∃ name text span, e = .unsupported name text span ∧
      bareExpression e = .unsupported name text := by
  cases e with
  | unsupported name text span => exact ⟨name, text, span, rfl, rfl⟩
  | _ => cases h

theorem readExpressionStatement_verbatim {kind : StmtKind}
    (h : readExpressionStatement children = some kind)
    (hkind : kind.isVerbatim = true) : KeptBelow none children kind := by
  have hno {found : Option StmtKind} (havoids : Avoids StmtKind.isVerbatim found)
      (hfound : found = some kind) :
      KeptBelow none children kind := absurd (havoids kind hfound) (by simp [hkind])
  unfold readExpressionStatement at h
  split at h
  · cases h
  · next only hparts =>
    split at h
    · exact hno avoids_readAssignment h
    · exact hno avoids_readAugmented h
    · obtain ⟨e, he, rfl⟩ := Option.map_eq_some_iff.1 h
      obtain ⟨name, text, span, rfl, hbare⟩ := eq_unsupported_of_bareExpression hkind
      exact ⟨name, text, span, hbare, .inr ⟨only, hparts ▸ List.mem_singleton_self only, he⟩⟩
  · exact hno (.map fun _ => rfl) h

/-- Where comments and kept statements come from. -/
theorem readStmt_verbatim {expr : Option Expr} {kind : StmtKind}
    (h : readStmt info children expr = some kind) (hkind : kind.isVerbatim = true) :
    (info.kind = "comment" ∧ kind = .comment (commentText info.text)) ∨
      (info.kind = "future_import_statement" ∧ kind = .comment info.text) ∨
        KeptBelow expr children kind := by
  have hno {found : Option StmtKind} (havoids : Avoids StmtKind.isVerbatim found)
      (hfound : found = some kind) : False :=
    absurd (havoids kind hfound) (by simp [hkind])
  unfold readStmt at h
  split at h
  · next hcomment => exact .inl ⟨hcomment, (Option.some.inj h).symm⟩
  · obtain ⟨name, text, span, hkept, hnone | hchild⟩ := readExpressionStatement_verbatim h hkind
    · cases hnone
    · exact .inr (.inr ⟨name, text, span, hkept, .inr hchild⟩)
  · exact (hno avoids_readAssignment h).elim
  · exact (hno avoids_readAugmented h).elim
  · exact (hno avoids_readIf h).elim
  · exact (hno (.bind fun _ => .bind fun _ => .bind fun _ => .some rfl) h).elim
  · exact (hno (.bind fun _ => .bind fun _ => .bind fun _ => .bind fun _ => .some rfl) h).elim
  · exact (hno avoids_readTry h).elim
  · exact (hno avoids_readWith h).elim
  · exact (hno avoids_readMatch h).elim
  · exact (hno (avoids_readFunction _) h).elim
  · exact (hno (avoids_readClass _) h).elim
  · exact (hno avoids_readDecorated h).elim
  · exact (hno (.map fun _ => rfl) h).elim
  · exact (hno (.bind fun _ => .bind fun _ => .some rfl) h).elim
  · exact (hno avoids_readDelete h).elim
  · exact (hno avoids_readAssert h).elim
  · exact (hno (.map fun _ => rfl) h).elim
  · exact (hno (.bind fun _ => .bind fun _ => .some rfl) h).elim
  · next hfuture => exact .inr (.inl ⟨hfuture, (Option.some.inj h).symm⟩)
  · exact (hno (.some rfl) h).elim
  · exact (hno (.some rfl) h).elim
  · exact (hno (.some rfl) h).elim
  · exact (hno (.some rfl) h).elim
  · exact (hno (.some rfl) h).elim
  · obtain ⟨e, rfl, rfl⟩ := Option.map_eq_some_iff.1 h
    obtain ⟨name, text, span, rfl, hbare⟩ := eq_unsupported_of_bareExpression hkind
    exact .inr (.inr ⟨name, text, span, hbare, .inl rfl⟩)

end Statements

section Expressions

/-- A comparison is kept as it is written when one of its operators is unknown. -/
theorem readComparison_cases (info : Info) (children : List ReadTree) :
    readComparison info children = some (unsupportedExpr info) ∨
      Avoids Expr.isUnsupported (readComparison info children) := by
  unfold readComparison
  split
  · exact .inr .none
  · exact .inl rfl
  · split
    · exact .inr .none
    · split
      · exact .inr .none
      · exact .inr (.some rfl)

theorem avoids_readSlice (index : Nat) (lower upper step : Option Expr) :
    Avoids Expr.isUnsupported (readSlice index lower upper step children) := by
  induction children generalizing index lower upper step with
  | nil => exact .some rfl
  | cons t rest ih =>
    rw [readSlice]
    split
    · exact ih _ _ _ _
    · split
      · refine .bind fun e => ?_
        split <;> exact ih _ _ _ _
      · exact ih _ _ _ _

theorem avoids_readComprehension (kind : ComprehensionKind) :
    Avoids Expr.isUnsupported (readComprehension kind children) := by
  refine .bind fun body => .bind fun clauses => ?_
  split
  · exact .bind fun _ => .bind fun _ => .some rfl
  · exact .bind fun _ => .some rfl

theorem avoids_readString : Avoids Expr.isUnsupported (readString info children) := by
  unfold readString
  dsimp only
  split
  · exact .bind fun _ => .some rfl
  · exact .some rfl

theorem avoids_readCall : Avoids Expr.isUnsupported (readCall children) := by
  refine .bind fun func => .bind fun arguments => ?_
  split <;> exact .bind fun _ => .some rfl

theorem avoids_readYield : Avoids Expr.isUnsupported (readYield children) := by
  unfold readYield
  split <;> exact .map fun _ => rfl

theorem firstExpr_mem {e : Expr} (h : firstExpr children = some e) :
    ∃ child ∈ parts children, asExpr child = some e := by
  obtain ⟨child, hchild, he⟩ := Option.bind_eq_some_iff.1 h
  exact ⟨child, List.mem_of_head? hchild, he⟩

theorem isUnsupported_sum (items : List Expr) {start : Expr} (h : start.isUnsupported = false) :
    (items.foldl (fun sum e => Expr.binary sum .add e) start).isUnsupported = false := by
  induction items generalizing start with
  | nil => exact h
  | cons item rest ih => exact ih rfl

theorem isUnsupported_readNumber (info : Info) : (readNumber info).isUnsupported = false := by
  unfold readNumber
  split
  · rfl
  · rfl
  · split <;> rfl

/-- Strings that stand side by side are a sum, unless there is only one. -/
theorem readConcatenation_unsupported {e : Expr} (h : readConcatenation children = some e)
    (he : e.isUnsupported = true) : ∃ child ∈ parts children, asExpr child = some e := by
  obtain ⟨items, hitems, h⟩ := Option.bind_eq_some_iff.1 h
  cases items with
  | nil => cases h
  | cons first rest =>
    obtain rfl := Option.some.inj h
    cases rest with
    | nil => exact exists_mem_of_forall₂ (mapM_eq_some_iff.1 hitems) (List.mem_singleton_self first)
    | cons second rest =>
      rw [List.foldl_cons, isUnsupported_sum rest rfl] at he
      cases he

/-- An expression that is kept as it is written is the node itself, or one of its named children. -/
theorem readExpr_unsupported {name text : String} {span : Span}
    (h : readExpr info children = some (.unsupported name text span)) :
    (name = info.kind ∧ text = info.text) ∨
      ∃ child ∈ parts children, asExpr child = some (.unsupported name text span) := by
  have hno {found : Option Expr} (havoids : Avoids Expr.isUnsupported found)
      (hfound : found = some (.unsupported name text span)) : False :=
    absurd (havoids _ hfound) (by simp [Expr.isUnsupported])
  have hself (hfound : some (unsupportedExpr info) = some (.unsupported name text span)) :
      name = info.kind ∧ text = info.text := by
    obtain ⟨hname, htext, -⟩ := Expr.unsupported.inj (Option.some.inj hfound)
    exact ⟨hname.symm, htext.symm⟩
  unfold readExpr at h
  -- a kind that is read to a form of its own keeps nothing, whatever its children are
  split at h
  · exact (hno (.some rfl) h).elim
  · exact (hno (.some rfl) h).elim
  · exact (hno (.some (isUnsupported_readNumber info)) h).elim
  · exact (hno (.some (isUnsupported_readNumber info)) h).elim
  · exact (hno avoids_readString h).elim
  · exact .inr (readConcatenation_unsupported h rfl)
  · exact (hno (.some rfl) h).elim
  · exact (hno (.some rfl) h).elim
  · exact (hno (.some rfl) h).elim
  · exact (hno (.some rfl) h).elim
  · -- an operator without a counterpart: the whole node is kept
    obtain ⟨symbol, -, h⟩ := Option.bind_eq_some_iff.1 h
    split at h
    · exact .inl (hself h)
    · exact (hno (.bind fun _ => .bind fun _ => .some rfl) h).elim
  · obtain ⟨symbol, -, h⟩ := Option.bind_eq_some_iff.1 h
    split at h
    · exact .inl (hself h)
    · exact (hno (.bind fun _ => .some rfl) h).elim
  · exact (hno (.map fun _ => rfl) h).elim
  · obtain ⟨symbol, -, h⟩ := Option.bind_eq_some_iff.1 h
    split at h
    · exact .inl (hself h)
    · exact (hno (.bind fun _ => .bind fun _ => .some rfl) h).elim
  · rcases readComparison_cases info children with hkept | havoids
    · exact .inl (hself (hkept ▸ h))
    · exact (hno havoids h).elim
  · refine (hno (.bind fun items => ?_) h).elim
    split
    · exact .some rfl
    · exact .none
  · exact (hno (.bind fun _ => .bind fun _ => .some rfl) h).elim
  · exact (hno (.bind fun _ => .bind fun _ => .some rfl) h).elim
  · exact (hno (.bind fun _ => .bind fun _ => .some rfl) h).elim
  · exact (hno (.bind fun _ => .bind fun _ => .some rfl) h).elim
  · exact (hno (avoids_readSlice _ _ _ _) h).elim
  · exact (hno avoids_readCall h).elim
  · exact (hno (.map fun _ => rfl) h).elim
  · exact (hno (.map fun _ => rfl) h).elim
  · exact (hno (.map fun _ => rfl) h).elim
  · exact (hno (.map fun _ => rfl) h).elim
  · exact (hno (.map fun _ => rfl) h).elim
  · exact (hno (.map fun _ => rfl) h).elim
  · exact (hno (.map fun _ => rfl) h).elim
  · exact (hno (.map fun _ => rfl) h).elim
  · exact (hno (avoids_readComprehension _) h).elim
  · exact (hno (avoids_readComprehension _) h).elim
  · exact (hno (avoids_readComprehension _) h).elim
  · exact (hno (avoids_readComprehension _) h).elim
  · exact (hno (.map fun _ => rfl) h).elim
  · exact (hno (.map fun _ => rfl) h).elim
  · exact (hno (.map fun _ => rfl) h).elim
  · -- parentheses and type hints stand for what is in them
    exact .inr (firstExpr_mem h)
  · exact .inr (firstExpr_mem h)
  · exact .inr (firstExpr_mem h)
  · exact (hno (.map fun _ => rfl) h).elim
  · exact (hno avoids_readYield h).elim
  · exact .inl (hself h)

end Expressions

/-! ## Trees -/

section Trees

variable {node : Node}

/-- A named child that has been read is a named child of the node. -/
theorem exists_child_of_mem_parts {t : ReadTree} (h : t ∈ parts (node.children.map readTree)) :
    ∃ child ∈ node.children, child.info.named = true ∧ readTree child = t := by
  obtain ⟨hmem, hpart⟩ := List.mem_filter.1 h
  obtain ⟨child, hchild, rfl⟩ := List.mem_map.1 hmem
  rw [Bool.and_eq_true, readTree, Tree.info_annotate] at hpart
  exact ⟨child, hchild, hpart.1, rfl⟩

theorem mem_preorder_of_mem_children {child inner : Node} (hchild : child ∈ node.children)
    (hinner : inner ∈ child.preorder) : inner ∈ node.preorder := by
  rw [Tree.preorder_eq]
  exact List.mem_cons_of_mem _ (List.mem_flatMap.2 ⟨child, hchild, hinner⟩)

/-- An expression that is kept has the kind and the text of a named node. -/
theorem exists_node_of_unsupported {name text : String} {span : Span}
    (hnamed : node.info.named = true)
    (h : asExpr (readTree node) = some (.unsupported name text span)) :
    ∃ inner ∈ node.preorder, inner.info.named = true ∧ name = inner.kind ∧ text = inner.text := by
  induction node using Tree.induct with
  | step t ih =>
    rw [asExpr, readTree, Tree.value_annotate] at h
    rcases readExpr_unsupported h with ⟨hname, htext⟩ | ⟨part, hpart, hbelow⟩
    · exact ⟨t, t.mem_preorder_self, hnamed, hname, htext⟩
    · obtain ⟨child, hchild, hnamed, rfl⟩ := exists_child_of_mem_parts hpart
      obtain ⟨inner, hinner, hfound⟩ := ih child hchild hnamed hbelow
      exact ⟨inner, mem_preorder_of_mem_children hchild hinner, hfound⟩

/-- A statement that holds source text is a comment, a `from __future__ import`, or has the kind and
the text of a node. -/
theorem statement?_verbatim {kind : StmtKind} (hnamed : node.info.named = true)
    (h : statement? node = some kind) (hkind : kind.isVerbatim = true) :
    (node.kind = "comment" ∧ kind = .comment (commentText node.text)) ∨
      (node.kind = "future_import_statement" ∧ kind = .comment node.text) ∨
      ∃ inner ∈ node.preorder, inner.info.named = true ∧
        kind = .unsupported inner.kind inner.text := by
  have hexpr : asExpr (readTree node) = readExpr node.info (node.children.map readTree) := by
    rw [asExpr, readTree, Tree.value_annotate]
    rfl
  rw [statement?, readTree, Tree.value_annotate] at h
  refine (readStmt_verbatim h hkind).imp_right (.imp_right ?_)
  rintro ⟨name, text, span, rfl, hself | ⟨part, hpart, hbelow⟩⟩
  · obtain ⟨inner, hinner, hnamed, rfl, rfl⟩ :=
      exists_node_of_unsupported hnamed (hexpr.trans hself)
    exact ⟨inner, hinner, hnamed, rfl⟩
  · obtain ⟨child, hchild, hnamed, rfl⟩ := exists_child_of_mem_parts hpart
    obtain ⟨inner, hinner, hnamed, rfl, rfl⟩ := exists_node_of_unsupported hnamed hbelow
    exact ⟨inner, mem_preorder_of_mem_children hchild hinner, hnamed, rfl⟩

end Trees

end Reading

end PythonToCSharp
