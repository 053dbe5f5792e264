import PythonToCSharp.Proofs.Classes.Placement
import PythonToCSharp.Proofs.Comments.Lines
import PythonToCSharp.Proofs.Reading.Verbatim

/-!
Source text that is kept in comments.

A comment of the source, a statement without a counterpart and a string that stands alone are kept
as comments, and so are decorators that cannot be applied. A `from __future__ import` is kept with a
single pair of slashes although it may go on over several lines, and so is a decorator with a line
feed in its text. What stands on the further lines is code then, unless it begins with slashes by
chance. Everything else that is kept stays a comment.
-/

namespace PythonToCSharp

namespace Python

/-- The statement is source text that is kept in comments. -/
def StmtKind.isKept : StmtKind → Bool
  | .expr (.str _) => true
  | kind => kind.isVerbatim

/-- The statement stands in a body, at any depth. -/
inductive Occurs (s : Stmt) : List Stmt → Prop where
  | here {body : List Stmt} : s ∈ body → Occurs s body
  | inside {body inner : List Stmt} {outer : Stmt} :
    outer ∈ body → inner ∈ outer.kind.bodies → Occurs s inner → Occurs s body

end Python

namespace Reading

open Python Concrete

/-- What a parser promises: kinds and comments are written on one line. -/
def SingleLine (root : Node) : Prop :=
  ∀ node ∈ root.preorder, (node.info.named = true → '\n' ∉ node.kind.toList) ∧
    (node.kind = "comment" → '\n' ∉ node.text.toList)

instance (root : Node) : Decidable (SingleLine root) :=
  inferInstanceAs
    (Decidable (∀ node ∈ root.preorder, (node.info.named = true → '\n' ∉ node.kind.toList) ∧
    (node.kind = "comment" → '\n' ∉ node.text.toList)))

/-! ## Where kept statements come from -/

theorem body_of_read {root : Node} {module : Module} (h : read root = .ok module) :
    module.body = blockAt (readTree root) := by
  unfold read at h
  split at h
  · obtain rfl := Except.ok.inj h
    rfl
  · cases h

theorem exists_stmtOf_of_mem {node : Node} {body : List Stmt} (h : BlockOf node body) {stmt : Stmt}
    (hmem : stmt ∈ body) :
    ∃ child ∈ node.children, child.info.named = true ∧ StmtOf child stmt := by
  cases h with
  | block hstmts =>
    obtain ⟨child, hchild, hstmt⟩ := exists_mem_of_forall₂ hstmts hmem
    obtain ⟨hchild, hnamed⟩ := List.mem_filter.1 hchild
    exact ⟨child, hchild, hnamed, hstmt⟩

/-- Every statement of a tree, at any depth, stands for a named node. -/
theorem exists_stmtOf_of_occurs {root node : Node} (hnode : node ∈ root.preorder) {body : List Stmt}
    (hblock : BlockOf node body) {stmt : Stmt} (h : Occurs stmt body) :
    ∃ inner ∈ root.preorder, inner.info.named = true ∧ StmtOf inner stmt := by
  induction h generalizing node with
  | here hmem =>
    obtain ⟨child, hchild, hnamed, hstmt⟩ := exists_stmtOf_of_mem hblock hmem
    have hbelow := mem_preorder_of_mem_children hchild child.mem_preorder_self
    exact ⟨child, Tree.mem_preorder_trans hbelow hnode, hnamed, hstmt⟩
  | inside hmem hinner _ ih =>
    obtain ⟨child, hchild, -, hstmt⟩ := exists_stmtOf_of_mem hblock hmem
    cases hstmt with
    | kept hnone => cases hinner
    | read hread hnodes hblocks =>
      obtain ⟨other, hother, hblock⟩ := exists_mem_of_forall₂ hblocks hinner
      have hbelow : other ∈ child.preorder := by
        rw [Tree.preorder_eq]
        exact List.mem_cons_of_mem _ (hnodes.subset hother)
      exact ih (Tree.mem_preorder_trans (mem_preorder_of_mem_children hchild hbelow) hnode) hblock

theorem newline_not_mem_commentText {text : String} (h : '\n' ∉ text.toList) :
    '\n' ∉ (commentText text).toList := by
  unfold commentText
  split
  · next rest htext =>
    rw [String.toList_ofList]
    exact fun hmem => h (htext ▸ List.mem_cons_of_mem _ (Text.mem_of_mem_trimChars hmem))
  · rw [String.toList_ofList]
    exact fun hmem => h (Text.mem_of_mem_trimChars hmem)

/-- What a kept statement can be: only the text of a `from __future__ import` may go on behind a
line feed. -/
theorem kept_cases {root node : Node} (hsingle : SingleLine root) (hnode : node ∈ root.preorder)
    (hnamed : node.info.named = true) {stmt : Stmt} (h : StmtOf node stmt)
    (hkept : stmt.kind.isKept = true) : (∃ text, '\n' ∉ text.toList ∧ stmt.kind = .comment text) ∨
      (∃ kind text, '\n' ∉ kind.toList ∧ stmt.kind = .unsupported kind text) ∨
      (∃ literal, stmt.kind = .expr (.str literal)) ∨
      (node.kind = "future_import_statement" ∧ stmt = ⟨.comment node.text, node.info.span⟩) := by
  cases h with
  | kept hnone => exact .inr (.inl ⟨node.kind, node.text, (hsingle node hnode).1 hnamed, rfl⟩)
  | @read _ kind _ hread _ _ =>
    have hverbatim : (∃ literal, kind = .expr (.str literal)) ∨ kind.isVerbatim = true := by
      unfold StmtKind.isKept at hkept
      split at hkept
      · next literal hkind => exact .inl ⟨literal, hkind⟩
      · exact .inr hkept
    rcases hverbatim with hstring | hverbatim
    · exact .inr (.inr (.inl hstring))
    · rcases statement?_verbatim hnamed hread hverbatim with
        ⟨hkind, rfl⟩ | ⟨hkind, rfl⟩ | ⟨inner, hinner, hnamed, rfl⟩
      · exact .inl ⟨_, newline_not_mem_commentText ((hsingle node hnode).2 hkind), rfl⟩
      · exact .inr (.inr (.inr ⟨hkind, rfl⟩))
      · have hsingleInner := hsingle inner (Tree.mem_preorder_trans hinner hnode)
        exact .inr (.inl ⟨inner.kind, inner.text, hsingleInner.1 hnamed, rfl⟩)

end Reading

namespace Lowering

open CSharp (decoratorLines layoutAll)
open Layout (Commented ContinuesAsCode printAll)
open Reading (SingleLine StmtOf)

/-! ## What is written for them -/

variable (names : LibraryNames)

theorem lowerStmt_comment (text : String) (span : Python.Span) (s : State) :
    lowerStmt names ⟨.comment text, span⟩ s = .ok ([comment text], s) := by
  rw [lowerStmt, lowerKind]
  rfl

theorem lowerStmt_string (literal : Python.StringLiteral) (span : Python.Span) (s : State) :
    lowerStmt names ⟨.expr (.str literal), span⟩ s = .ok (docComment literal.body, s) := by
  rw [lowerStmt, lowerKind]
  rfl

theorem lowerStmt_unsupported (kind text : String) (span : Python.Span) (s : State) : ∃ after,
    lowerStmt names ⟨.unsupported kind text, span⟩ s = .ok (keptAsComment kind text, after) := by
  rw [lowerStmt, lowerKind]
  exact ⟨_, rfl⟩

/-- A kept statement is written as comments, unless it is a `from __future__ import` that goes on as
code. -/
theorem commented_kept {root node : Concrete.Node} (hsingle : SingleLine root)
    (hnode : node ∈ root.preorder)
    (hnamed : node.info.named = true) {stmt : Python.Stmt} (h : StmtOf node stmt)
    (hkept : stmt.kind.isKept = true)
    (width level : Nat) (s : State) : ∃ lines after, lowerStmt names stmt s = .ok (lines, after) ∧
      (¬Commented (printAll width level (layoutAll lines)) ↔ ∃ source ∈ root.preorder,
        source.kind = "future_import_statement" ∧ stmt = ⟨.comment source.text, source.info.span⟩ ∧
          ContinuesAsCode source.text) := by
  obtain ⟨kind, span⟩ := stmt
  rcases Reading.kept_cases hsingle hnode hnamed h hkept with
    ⟨text, htext, rfl⟩ | ⟨name, text, hname, rfl⟩ | ⟨literal, rfl⟩ | ⟨hfuture, hstmt⟩
  · refine ⟨_, _, lowerStmt_comment names text span s, ?_⟩
    rw [commented_comment, not_not]
    refine iff_of_false (Layout.not_continuesAsCode htext) ?_
    rintro ⟨source, -, -, hsource, hcode⟩
    obtain rfl : text = source.text :=
      Python.StmtKind.comment.inj (congrArg Python.Stmt.kind hsource)
    exact Layout.not_continuesAsCode htext hcode
  · obtain ⟨after, hrun⟩ := lowerStmt_unsupported names name text span s
    refine ⟨_, after, hrun,
      iff_of_false (not_not.2 (commented_keptAsComment width level hname text)) ?_⟩
    rintro ⟨source, -, -, hsource, -⟩
    cases hsource
  · refine ⟨_, _, lowerStmt_string names literal span s,
      iff_of_false (not_not.2 (commented_docComment width level _)) ?_⟩
    rintro ⟨source, -, -, hsource, -⟩
    cases hsource
  · rw [hstmt]
    refine ⟨_, _, lowerStmt_comment names node.text node.info.span s, ?_⟩
    rw [commented_comment, not_not]
    constructor
    · exact fun hcode => ⟨node, hnode, hfuture, rfl, hcode⟩
    · rintro ⟨source, -, -, hsource, hcode⟩
      obtain htext : node.text = source.text :=
        Python.StmtKind.comment.inj (congrArg Python.Stmt.kind hsource)
      rwa [htext]

/-- A declaration begins with its decorators, and they are comments unless the text of one goes on
as code. -/
def DecoratorsLead (width level : Nat) (decorators : List CSharp.Expr)
    (layout : List Layout.Node) : Prop :=
  decoratorLines decorators <+: layout ∧
    (¬Commented (printAll width level (decoratorLines decorators)) ↔
      ∃ decorator ∈ decorators, ContinuesAsCode decorator.text)

theorem decoratorsLead {decorators : List CSharp.Expr} {layout : List Layout.Node}
    (h : decoratorLines decorators <+: layout) (width level : Nat) :
    DecoratorsLead width level decorators layout := by
  refine ⟨h, ?_⟩
  rw [commented_decoratorLines]
  simp

theorem decorators_prefix_function (function : CSharp.Function) :
    decoratorLines function.decorators <+: function.layout := by
  cases function
  rw [CSharp.Function.layout]
  exact List.prefix_append _ _

theorem decorators_prefix_class (type : CSharp.Class) :
    decoratorLines type.decorators <+: type.layout := by
  rw [type.layout_eq]
  exact List.prefix_append _ _

/-- Source text that is kept in comments stays there: a comment, a statement without a counterpart
and a string that stands alone are written as nothing but comments, wherever they stand in a tree
that can be read. The one exception is a `from __future__ import` whose text goes on behind a line
feed. The decorators of a function or a class come before it, as comments unless the text of one
goes on behind a line feed. -/
theorem kept_text_commented_iff (root : Concrete.Node) (module : Python.Module)
    (hread : Reading.read root = .ok module)
    (hsingle : SingleLine root) (stmt : Python.Stmt) (hstmt : Python.Occurs stmt module.body)
    (width level : Nat) (s : State) : ∃ lines after, lowerStmt names stmt s = .ok (lines, after) ∧
      (stmt.kind.isKept = true →
        (¬Commented (printAll width level (layoutAll lines)) ↔ ∃ source ∈ root.preorder,
        source.kind = "future_import_statement" ∧ stmt = ⟨.comment source.text, source.info.span⟩ ∧
          ContinuesAsCode source.text)) ∧
      (∀ definition, stmt.kind = .functionDef definition →
        ∃ function, lines = [.function function] ∧ function.decorators = (lowerDecorators names
          (otherDecorators (s.scopes.current.kind == .class_) definition.decorators)
            { s with span := stmt.span }).1 ∧
        DecoratorsLead width level function.decorators function.layout) ∧
      ∀ definition, stmt.kind = .classDef definition → ∃ type,
        (lines = [.type type] ∨ lines = [] ∧ ∃ earlier, after.types = earlier ++ [type]) ∧
        type.decorators = (classHead names definition { s with span := stmt.span }).1 ∧
        DecoratorsLead width level type.decorators type.layout := by
  obtain ⟨node, hnode, hnamed, hof⟩ := Reading.exists_stmtOf_of_occurs root.mem_preorder_self
    (Reading.blockOf_preorder root root root.mem_preorder_self) (Reading.body_of_read hread ▸ hstmt)
  obtain ⟨kind, span⟩ := stmt
  cases hkept : kind.isKept with
  | true =>
    obtain ⟨lines, after, hrun, hlines⟩ :=
      commented_kept names hsingle hnode hnamed hof hkept width level s
    refine ⟨lines, after, hrun, fun _ => hlines, ?_, ?_⟩
    · rintro definition rfl
      cases hkept
    · rintro definition rfl
      cases hkept
  | false =>
    cases kind with
    | functionDef definition =>
      obtain ⟨lines, last, after, -, hrun⟩ := lowerFunctionDef_closed names definition span s
      refine ⟨_, after, hrun, fun h => (nomatch h), ?_, fun _ h => (nomatch h)⟩
      rintro _ ⟨⟩
      exact ⟨_, rfl, rfl, decoratorsLead (decorators_prefix_function _) width level⟩
    | classDef definition =>
      obtain ⟨type, _, _, lines, after, -, rfl, hrun, hplace⟩ :=
        lowerClassDef_closed names definition span s
      refine ⟨lines, after, hrun, fun h => (nomatch h), fun _ h => (nomatch h), ?_⟩
      rintro _ ⟨⟩
      exact ⟨_, hplace, rfl, decoratorsLead (decorators_prefix_class _) width level⟩
    | _ =>
      obtain ⟨lines, after, hrun, -⟩ := succeeds_lowerStmt names ⟨_, span⟩ s
      exact ⟨lines, after, hrun, fun h => (nomatch h), fun _ h => (nomatch h),
        fun _ h => (nomatch h)⟩

/-- A `from __future__ import` over several lines. -/
def futureText : String :=
  "from __future__ import (\n    annotations,\n)\n"

/-- Its tree. -/
def futureTree : Concrete.Node :=
  (Concrete.Tree.ofPreorder? futureText
    [⟨"module", none, "n", 0, 44, 1⟩,
      ⟨"future_import_statement", none, "n", 0, 43, 7⟩,
        ⟨"from", none, "", 0, 4, 0⟩,
        ⟨"__future__", none, "", 5, 15, 0⟩,
        ⟨"import", none, "", 16, 22, 0⟩,
        ⟨"(", none, "", 23, 24, 0⟩,
        ⟨"dotted_name", some "name", "n", 29, 40, 1⟩,
          ⟨"identifier", none, "n", 29, 40, 0⟩,
        ⟨",", none, "", 40, 41, 0⟩,
        ⟨")", none, "", 42, 43, 0⟩]).getD default

/-- What is read. -/
def futureComment : Python.Stmt :=
  ⟨.comment "from __future__ import (\n    annotations,\n)", ⟨1, 1⟩⟩

theorem read_futureTree : Reading.read futureTree = .ok ⟨[futureComment]⟩ := by
  rfl

/-- What stands behind its first line is no comment. -/
theorem futureTree_continues : SingleLine futureTree ∧ ∃ lines after,
    lowerStmt {} futureComment {} = .ok (lines, after) ∧
      ¬Commented (printAll 4 0 (layoutAll lines)) := by
  have hsingle : SingleLine futureTree := by decide
  have hmem : futureComment ∈ [futureComment] := List.mem_singleton_self futureComment
  obtain ⟨lines, after, hrun, hlines, -⟩ :=
    kept_text_commented_iff {} futureTree ⟨[futureComment]⟩ read_futureTree hsingle futureComment
      (.here hmem) 4 0 {}
  let source := futureTree.preorder.get ⟨1, by decide⟩
  have hcode : ContinuesAsCode source.text := by decide
  exact ⟨hsingle, lines, after, hrun,
    (hlines rfl).2 ⟨source, List.get_mem _ _, by decide, rfl, hcode⟩⟩

/-- A function under a decorator with a raw string of two lines. -/
def decoratedFunction : Python.FunctionDef :=
  ⟨"f", [], none, [⟨.passStmt, ⟨4, 5⟩⟩],
    [.call (.name "d") [.positional (.str ⟨"a\nb", true, false⟩)]], false⟩

/-- The names that are imported, and the end of the decorator's string, are written as code. -/
theorem futureTree_not_commented :
    Reading.read futureTree = .ok ⟨[futureComment]⟩ ∧
    (lower {} ⟨[futureComment]⟩).toOption.map (·.code) =
      some "// from __future__ import (\n    annotations,\n)\n" ∧
    ¬Commented "// from __future__ import (\n    annotations,\n)\n" ∧
    (lower {} ⟨[⟨.functionDef decoratedFunction, ⟨3, 1⟩⟩]⟩).toOption.map (·.code) =
      some "// @d(@\"a\nb\")\nvoid f()\n\x7b\n    ;\n\x7d\n" ∧
    ¬Commented "// @d(@\"a\nb\")\n" := by
  refine ⟨read_futureTree, ?_, ?_, ?_, ?_⟩ <;> decide

end Lowering

end PythonToCSharp
