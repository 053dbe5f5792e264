import PythonToCSharp.Text.Lines

/-!
Declaration lines: several names of one type, in order, on one line.
-/

namespace PythonToCSharp.CSharp

/-- The line that declares names of a type, with `lead` before it; nothing is declared without
names. -/
def declarationLine (lead type : String) (names : List String) : Option String :=
  if names.isEmpty then none else some (lead ++ type ++ " " ++ Text.join ", " names ++ ";")

def flagLine (lead : String) (flags : List String) : Option String :=
  declarationLine lead "bool" flags

end PythonToCSharp.CSharp
