import PythonToCSharp.Json.Value
import PythonToCSharp.Python.Span

/-!
Findings about constructs that C# cannot express or that were rearranged, reported beside the code.
-/

namespace PythonToCSharp

open Python (Span)

/-- A warning says that meaning may be lost, a note that code was rearranged. -/
inductive Severity where
  | warning
  | note
  deriving DecidableEq, Repr

def Severity.text : Severity → String
  | .warning => "warning"
  | .note => "note"

/-- A finding about a construct of some kind at its place. -/
structure Diagnostic where
  severity : Severity
  kind : String
  span : Span
  message : String
  deriving DecidableEq, Repr

def Diagnostic.display (d : Diagnostic) : String :=
  toString d.span.line ++ ":" ++ toString d.span.column ++ ": " ++ d.severity.text ++ ": " ++
    d.message ++ " [" ++ d.kind ++ "]"

def Diagnostic.toJson (d : Diagnostic) : Json :=
  .obj [("severity", .str d.severity.text), ("node_kind", .str d.kind), ("line", .num d.span.line),
    ("column", .num d.span.column), ("message", .str d.message)]

end PythonToCSharp
