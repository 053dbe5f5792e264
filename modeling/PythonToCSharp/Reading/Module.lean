import PythonToCSharp.Concrete.SyntaxError
import PythonToCSharp.Reading.Statement

/-!
Reading a whole concrete tree. It fails exactly when the tree has syntax errors; otherwise every
statement that can be read becomes one of the typed tree, and the others stay as they are written.
-/

namespace PythonToCSharp.Reading

open Python Concrete

/-- The readings of a node from its children, which have been read. -/
def readNode (info : Info) (children : List ReadTree) : Views :=
  let expr := readExpr info children
  { expr := expr
    pattern := readPattern info children expr
    assigned := readAssigned info children expr
    stmt := readStmt info children expr }

def readTree (root : Node) : ReadTree :=
  root.annotate readNode

/-- The module a concrete tree stands for, or its syntax errors. -/
def read (root : Node) : Except (List SyntaxError) Module :=
  match syntaxErrors root with
  | [] => .ok ⟨readBlock (readTree root).children⟩
  | errors => .error errors

end PythonToCSharp.Reading
