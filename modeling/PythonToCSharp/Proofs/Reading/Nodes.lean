import Mathlib.Data.List.Forall2
import PythonToCSharp.Reading.Module

/-!
What a single node of a concrete tree is read as. Reading leaves the nodes themselves alone, so the
children of a node are found in the same way before and after it.
-/

namespace PythonToCSharp.Reading

open Python Concrete

/-- The expression that a node alone is read as, if it can be. -/
def expression? (node : Node) : Option Expr :=
  asExpr (readTree node)

/-- The pattern that a node alone is read as, if it can be. -/
def pattern? (node : Node) : Option Pattern :=
  asPattern (readTree node)

/-- A node that is a token written so. -/
def IsToken (text : String) (node : Node) : Prop :=
  node.info.named = false ∧ node.text = text

/-- A node without children, at its place in a text. -/
def leafNode (text kind : String) (field : Option String) (flags : String)
    (start stop : Nat) : Node :=
  .node (Entry.info text.toList ⟨kind, field, flags, start, stop, 0⟩) () []

@[simp] theorem info_readTree (node : Node) : (readTree node).info = node.info :=
  Tree.info_annotate readNode node

@[simp] theorem kind_readTree (node : Node) : (readTree node).kind = node.kind :=
  congrArg Info.kind (info_readTree node)

@[simp] theorem text_readTree (node : Node) : (readTree node).text = node.text :=
  congrArg Info.text (info_readTree node)

@[simp] theorem children_readTree (node : Node) :
    (readTree node).children = node.children.map readTree :=
  Tree.children_annotate readNode node

theorem expression?_eq (node : Node) :
    expression? node = readExpr node.info (node.children.map readTree) := by
  rw [expression?, asExpr, readTree, Tree.value_annotate]
  rfl

theorem pattern?_eq (node : Node) :
    pattern? node = readPattern node.info (node.children.map readTree) (expression? node) := by
  rw [expression?_eq, pattern?, asPattern, readTree, Tree.value_annotate]
  rfl

theorem parts_readTree (nodes : List Node) :
    parts (nodes.map readTree) = (parts nodes).map readTree := by
  simp [parts, List.filter_map, Function.comp_def]

theorem part?_readTree (nodes : List Node) :
    part? (nodes.map readTree) = (part? nodes).map readTree := by
  rw [part?, parts_readTree, List.head?_map, part?]

theorem fields_readTree (name : String) (nodes : List Node) :
    fields name (nodes.map readTree) = (fields name nodes).map readTree := by
  simp [fields, List.filter_map, Function.comp_def]

theorem asPatterns_readTree (nodes : List Node) :
    asPatterns (nodes.map readTree) = nodes.mapM pattern? := by
  rw [asPatterns, List.mapM_map]
  rfl

theorem partsOf_readTree (kind : String) (nodes : List Node) :
    partsOf kind (nodes.map readTree) = (partsOf kind nodes).map readTree := by
  simp [partsOf, parts_readTree, List.filter_map, Function.comp_def]

theorem mapM_eq_some_iff {α β : Type} {f : α → Option β} {items : List α} {found : List β} :
    items.mapM f = some found ↔ List.Forall₂
      (fun item result => f item = some result) items found := by
  induction items generalizing found with
  | nil => simp [eq_comm]
  | cons item rest ih =>
    rw [List.mapM_cons, List.forall₂_cons_left_iff]
    cases f item with
    | none => simp
    | some first =>
      cases hrest : rest.mapM f with
      | none => simp [← ih, hrest]
      | some more => simp [← ih, hrest, eq_comm]

/-- Of two lists that are related item by item, each item of the second is related to one of the
first. -/
theorem exists_mem_of_forall₂ {α β : Type} {R : α → β → Prop} {items : List α} {results : List β}
    (h : List.Forall₂ R items results) {result : β} (hmem : result ∈ results) :
    ∃ item ∈ items, R item result := by
  induction h with
  | nil => cases hmem
  | cons hfirst _ ih =>
    rcases List.mem_cons.1 hmem with rfl | hmem
    · exact ⟨_, List.mem_cons_self, hfirst⟩
    · obtain ⟨item, hitem, hresult⟩ := ih hmem
      exact ⟨item, List.mem_cons_of_mem _ hitem, hresult⟩

end PythonToCSharp.Reading
