import PythonToCSharp.Proofs.Reading.Blocks

/-!
The outcome of reading a concrete tree. It fails exactly if the tree has a fault, with the outermost
faults in preorder. Otherwise there is a module, and its blocks follow the nodes of the tree.
-/

namespace PythonToCSharp.Reading

open Python Concrete

/-- The statement that a node alone is read as, if it can be. -/
def statement? (node : Node) : Option StmtKind :=
  (readTree node).value.stmt

mutual

/-- A block follows a node: it has one statement for each named child, in their order. -/
inductive BlockOf : Node → List Stmt → Prop where
  | block {node : Node} {stmts : List Stmt} :
      List.Forall₂ StmtOf (node.children.filter fun child => child.info.named) stmts →
        BlockOf node stmts

/-- A statement stands for a node, at its place. If the node can be read, each block of the
statement follows a node of its own among those below; if not, the statement is the node's text. -/
inductive StmtOf : Node → Stmt → Prop where
  | read {node : Node} {kind : StmtKind} {nodes : List Node} :
      statement? node = some kind → nodes.Subperm node.descendants →
        List.Forall₂ BlockOf nodes kind.bodies →
      StmtOf node ⟨kind, node.info.span⟩
  | kept {node : Node} :
      statement? node = none → StmtOf node ⟨.unsupported node.kind node.text, node.info.span⟩

end

/-! ## Blocks follow nodes -/

/-- What is taken out of the images of some elements is the image of what is taken out of them. -/
theorem exists_subperm_of_map {α β : Type} {f : α → β} {pool : List α} {images : List β}
    (h : images.Subperm (pool.map f)) :
    ∃ taken : List α, taken.Subperm pool ∧ images = taken.map f := by
  obtain ⟨ordered, hperm, hsub⟩ := h
  obtain ⟨sources, hsources, rfl⟩ := List.sublist_map_iff.1 hsub
  have himages : List.Forall₂ (fun image source => image = f source) (sources.map f) sources :=
    List.forall₂_map_left_iff.2 (List.forall₂_same.2 fun _ _ => rfl)
  obtain ⟨taken, htaken, hsame⟩ := List.perm_comp_forall₂ hperm.symm himages
  refine ⟨taken, hsame.subperm.trans hsources.subperm, ?_⟩
  have hmap : List.Forall₂ Eq images (taken.map f) := List.forall₂_map_right_iff.2 htaken
  rwa [List.forall₂_eq_eq_eq] at hmap

/-- The blocks of a statement are the blocks of nodes below its own. -/
theorem statement?_bodies {node : Node} {kind : StmtKind} (h : statement? node = some kind) :
    ∃ nodes : List Node, nodes.Subperm node.descendants ∧
      kind.bodies = nodes.map fun node => blockAt (readTree node) := by
  have hbodies : kind.bodies.Subperm ((readTree node).descendants.map blockAt) := by
    rw [statement?, readTree, Tree.value_annotate, ← Tree.children_annotate] at h
    exact readStmt_subperm h
  rw [readTree, Tree.descendants_annotate, List.map_map] at hbodies
  exact exists_subperm_of_map hbodies

theorem stmtAt_readTree (node : Node) : stmtAt (readTree node) =
    ⟨(statement? node).getD (.unsupported node.kind node.text), node.info.span⟩ := by
  simp [stmtAt, statement?, readTree, Tree.kind, Tree.text]

theorem blockAt_readTree (node : Node) : blockAt (readTree node) =
    (node.children.filter fun child => child.info.named).map fun child =>
      stmtAt (readTree child) := by
  rw [blockAt, readBlock, readTree, Tree.children_annotate, List.filter_map, List.map_map]
  simp only [Function.comp_def, Tree.info_annotate]
  rfl

/-- The block of every node of a tree follows that node. -/
theorem blockOf_preorder (root : Node) :
    ∀ node ∈ root.preorder, BlockOf node (blockAt (readTree node)) := by
  induction root using Tree.induct with
  | step t ih =>
    intro node hnode
    rw [Tree.preorder_eq, List.mem_cons] at hnode
    rcases hnode with rfl | hbelow
    · rw [blockAt_readTree]
      refine .block (List.forall₂_map_right_iff.2 (List.forall₂_same.2 fun child hchild => ?_))
      have hmem : child ∈ node.children := (List.mem_filter.1 hchild).1
      rw [stmtAt_readTree]
      cases hread : statement? child with
      | none => exact .kept hread
      | some kind =>
        obtain ⟨nodes, hnodes, hbodies⟩ := statement?_bodies hread
        refine .read hread hnodes ?_
        rw [Option.getD_some, hbodies, List.forall₂_map_right_iff, List.forall₂_same]
        intro inner hinner
        have hinside : inner ∈ child.preorder := by
          rw [Tree.preorder_eq]
          exact List.mem_cons_of_mem _ (hnodes.subset hinner)
        exact ih child hmem inner hinside
    · obtain ⟨child, hchild, hnode⟩ := List.mem_flatMap.1 hbelow
      exact ih child hchild node hnode

/-! ## The outcome -/

theorem read_eq_error_iff {root : Node} {errors : List SyntaxError} :
    read root = .error errors ↔ syntaxErrors root = errors ∧ errors ≠ [] := by
  unfold read
  split
  · rename_i hnone
    simp [hnone, eq_comm]
  · rename_i hsome
    constructor
    · rintro ⟨⟩
      exact ⟨rfl, hsome⟩
    · rintro ⟨rfl, -⟩
      rfl

theorem read_of_no_errors {root : Node} (h : syntaxErrors root = []) :
    read root = .ok ⟨blockAt (readTree root)⟩ := by
  unfold read
  rw [h]
  rfl

/-- A node of a tree that is built from the nodes of a text has the text and the place of its bytes.
-/
theorem placed_of_ofPreorder? {source : String} {entries : List Entry} {root node : Node}
    (h : Tree.ofPreorder? source entries = some root) (hnode : node ∈ root.preorder)
    {front middle rest : List Char}
    (hsource : source.toList = front ++ middle ++ rest)
    (hstart : node.info.start = Text.byteLength front)
    (hstop : node.info.stop = Text.byteLength front + Text.byteLength middle) :
    node.info.span = ⟨front.count '\n' + 1, Text.byteLength (front.rtakeWhile (· != '\n')) + 1⟩ ∧
      node.text = String.ofList middle := by
  have hmem : node.info ∈ entries.map (Entry.info source.toList) :=
    preorder_ofPreorder? h ▸ List.mem_map_of_mem hnode
  obtain ⟨entry, -, hentry⟩ := List.mem_map.1 hmem
  rw [← hentry] at hstart hstop
  change entry.start = _ at hstart
  change entry.stop = _ at hstop
  constructor
  · rw [← hentry]
    show Span.ofOffset source.toList entry.start = _
    rw [hsource, List.append_assoc, hstart, Span.ofOffset_append]
  · rw [Tree.text, ← hentry]
    show String.ofList (Text.slice source.toList entry.start entry.stop) = _
    rw [hsource, hstart, hstop, Text.slice_append_append]

/-- Reading fails exactly on faults. Let every node above a fault have its flag set. Then there are
syntax errors if and only if the tree has a fault, and they are those of the outermost faults, in
preorder. Of any other tree there is a module whose blocks follow the tree's nodes, down to the
innermost one. Places count lines and bytes from one. -/
theorem reading_fails_exactly_on_faults (root : Node) (h : root.Flagged) :
    ((∃ errors, read root = .error errors) ↔ ∃ node ∈ root.preorder, node.info.isFault) ∧
    (∀ errors, read root = .error errors → errors = root.outermostFaults.map (·.info.syntaxError)) ∧
    ((∀ node ∈ root.preorder, node.info.isFault = false) →
      ∃ module, read root = .ok module ∧ BlockOf root module.body) ∧
    ∀ source entries, Tree.ofPreorder? source entries = some root →
      ∀ node ∈ root.preorder, ∀ front middle rest,
      source.toList = front ++ middle ++ rest → node.info.start = Text.byteLength front →
      node.info.stop = Text.byteLength front + Text.byteLength middle →
      node.info.span = ⟨front.count '\n' + 1, Text.byteLength (front.rtakeWhile (· != '\n')) + 1⟩ ∧
        node.text = String.ofList middle := by
  have herrors := syntaxErrors_eq_outermostFaults h
  have hfaults : syntaxErrors root = [] ↔ ∀ node ∈ root.preorder, node.info.isFault = false := by
    rw [herrors, List.map_eq_nil_iff, outermostFaults_eq_nil_iff]
  refine ⟨⟨?_, ?_⟩, ?_, ?_, ?_⟩
  · rintro ⟨errors, hread⟩
    obtain ⟨rfl, hsome⟩ := read_eq_error_iff.1 hread
    by_contra hnone
    exact hsome (hfaults.2
      fun node hnode => by simpa using fun hfault => hnone ⟨node, hnode, hfault⟩)
  · rintro ⟨node, hnode, hfault⟩
    refine ⟨_, read_eq_error_iff.2 ⟨rfl, fun hnone => ?_⟩⟩
    simp [hfaults.1 hnone node hnode] at hfault
  · intro errors hread
    rw [← herrors, (read_eq_error_iff.1 hread).1]
  · intro hnone
    exact ⟨_, read_of_no_errors (hfaults.2 hnone),
      blockOf_preorder root root root.mem_preorder_self⟩
  · intro source entries hroot node hnode front middle rest
    exact placed_of_ofPreorder? hroot hnode

/-- A call that is never closed, and a name. -/
def brokenText : String :=
  "f(\nx\n"

/-- Its nodes: an error with another one in it, and a statement that lacks a token. -/
def brokenNodes : List Entry :=
  [⟨"module", none, "nh", 0, 5, 2⟩,
    ⟨"ERROR", none, "neh", 0, 2, 2⟩,
      ⟨"identifier", none, "n", 0, 1, 0⟩,
      ⟨"ERROR", none, "neh", 1, 2, 0⟩,
    ⟨"expression_statement", none, "nh", 3, 4, 2⟩,
      ⟨"identifier", none, "n", 3, 4, 0⟩,
      ⟨")", none, "mh", 4, 4, 0⟩]

/-- The tree of these nodes. -/
def brokenTree : Node :=
  (Tree.ofPreorder? brokenText brokenNodes).getD default

/-- The inner error is not reported, and the missing token is found behind the outer one. -/
theorem brokenTree_errors : brokenTree.Flagged ∧
    read brokenTree = .error [⟨⟨1, 1⟩, "unexpected `f(`"⟩, ⟨⟨2, 2⟩, "missing `)`"⟩] := by
  have hflags : brokenTree.Flagged := by decide
  obtain ⟨hfails, herrors, -⟩ := reading_fails_exactly_on_faults brokenTree hflags
  obtain ⟨errors, hread⟩ := hfails.2 (by decide)
  refine ⟨hflags, hread.trans (congrArg Except.error ((herrors errors hread).trans ?_))⟩
  decide

end PythonToCSharp.Reading
