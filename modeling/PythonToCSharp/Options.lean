/-!
What a user may choose: the width of a level of indentation and the names of the runtime library
that the code refers to.
-/

namespace PythonToCSharp

/-- The names of the runtime library's types and helpers. -/
structure LibraryNames where
  /-- The type of every variable and parameter. -/
  valueType : String := "PyVariable"
  listType : String := "list"
  dictType : String := "dict"
  setType : String := "set"
  /-- The type of tuples with no element or one. -/
  tupleType : String := "tuple"
  /-- The helper for `**`. -/
  powFn : String := "pow"
  /-- The helper for `//`. -/
  floordivFn : String := "floordiv"
  /-- The helper for `@`. -/
  matmulFn : String := "matmul"
  deriving DecidableEq, Repr

structure Options where
  indentWidth : Nat := 4
  library : LibraryNames := {}
  deriving DecidableEq, Repr

end PythonToCSharp
