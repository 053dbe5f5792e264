import PythonToCSharp.Concrete.Tree
import PythonToCSharp.Python.Tree

/-!
The views of a node of the concrete tree: what it is as an expression, as a pattern, as the right
side of an assignment and as a statement.

A view is absent when the node does not have the shape its kind promises. Views are computed from
the leaves up, so a reader looks only at the nodes below its own and at their views.
-/

namespace PythonToCSharp.Reading

open Python Concrete

/-- What a node is in each of the places where it may stand. -/
structure Views where
  expr : Option Expr
  pattern : Option Pattern
  /-- As the right side of an assignment: the targets it assigns in turn, and the value at the end.
  -/
  assigned : Option (List Expr × Expr)
  stmt : Option StmtKind

instance : Inhabited Views := ⟨⟨none, none, none, none⟩⟩

/-- A node that has been read. -/
abbrev ReadTree := Concrete.Tree Views

def asExpr (t : ReadTree) : Option Expr :=
  t.value.expr

def asPattern (t : ReadTree) : Option Pattern :=
  t.value.pattern

def asExprs (ts : List ReadTree) : Option (List Expr) :=
  ts.mapM asExpr

def asPatterns (ts : List ReadTree) : Option (List Pattern) :=
  ts.mapM asPattern

/-- An optional node: absent, or read by `f`. -/
def optionally {α β : Type} (f : α → Option β) : Option α → Option (Option β)
  | none => some none
  | some a => (f a).map some

def exprField (name : String) (children : List ReadTree) : Option Expr :=
  (field? name children).bind asExpr

def textField (name : String) (children : List ReadTree) : Option String :=
  (field? name children).map Concrete.Tree.text

def optionalField (name : String) (children : List ReadTree) : Option (Option Expr) :=
  optionally asExpr (field? name children)

def firstExpr (children : List ReadTree) : Option Expr :=
  (part? children).bind asExpr

/-- One node as itself, several or none as a tuple. -/
def asTuple : List ReadTree → Option Expr
  | [only] => asExpr only
  | many => (asExprs many).map .tuple

/-- A node kept as it is written, for want of a form as an expression. -/
def unsupportedExpr (info : Info) : Expr :=
  .unsupported info.kind info.text info.span

/-- A node kept as it is written, for want of a form as a pattern. -/
def unsupportedPattern (info : Info) : Pattern :=
  .unsupported info.kind info.text info.span

end PythonToCSharp.Reading
