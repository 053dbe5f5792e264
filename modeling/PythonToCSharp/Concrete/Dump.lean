import PythonToCSharp.Concrete.Tree
import PythonToCSharp.Text.Lines

/-!
The written form of a concrete tree: one node on a line, in preorder, as its kind, field, flags,
start, end and number of children with tabs between them. A node without a field has an empty one.
-/

namespace PythonToCSharp.Concrete

def Entry.ofLine? (line : String) : Option Entry :=
  match Text.pieces '\t' line with
  | [kind, field, flags, start, stop, count] => do
    some ⟨kind, if field.isEmpty then none else some field,
      flags, ← start.toNat?, ← stop.toNat?, ← count.toNat?⟩
  | _ => none

/-- The tree of a source text in its written form. -/
def Tree.ofDump? (source dump : String) : Option Node := do
  Tree.ofPreorder? source (← (Text.lines dump).mapM Entry.ofLine?)

end PythonToCSharp.Concrete
