import PythonToCSharp.CSharp.Pattern
import PythonToCSharp.Lowering.Expression
import PythonToCSharp.Text.Lines

/-!
Python patterns as C# patterns. Names that a pattern binds become `var` patterns. A mapping pattern
has no counterpart and is written as entries between braces, with a warning.
-/

namespace PythonToCSharp.Lowering

open CSharp (escapeIdentifier)

/-- A dotted name, each segment as C# spells it. -/
def dottedPath (path : String) : String :=
  Text.join "." ((Text.pieces '.' path).map escapeIdentifier)

def namedPattern (pattern : Python.Pattern) (lowered : Render CSharp.Pattern) (name : String) :
    Render CSharp.Pattern :=
  match pattern with
  | .wildcard => return .var (escapeIdentifier name)
  | _ => do return .named (← lowered) (escapeIdentifier name)

mutual

def lowerPattern (names : LibraryNames) : Python.Pattern → Render CSharp.Pattern
  | .wildcard => return .discard
  | .capture name => return .var (escapeIdentifier name)
  | .literal value => do return .constant (← lowerExpr names value)
  | .value path => return .path (dottedPath path)
  | .sequence items => do return .list (← lowerPatterns names items)
  | .star name => return .slice (name.map escapeIdentifier)
  | .mapping items rest => do
    warn "dict_pattern" "mapping patterns have no C# equivalent; rendered as a property pattern"
    return .entries (← lowerEntries names items) (rest.map escapeIdentifier)
  | .classPattern cls positional keywords => do
    let positional ← lowerPatterns names positional
    return .type cls positional (← lowerKeywords names keywords)
  | .either alternatives => do return .or (← lowerPatterns names alternatives)
  | .asName pattern name => namedPattern pattern (lowerPattern names pattern) name
  | .unsupported kind text span => do
    report .warning kind span "no C# pattern for this; source kept verbatim"
    return .verbatim text

def lowerPatterns (names : LibraryNames) : List Python.Pattern → Render (List CSharp.Pattern)
  | [] => return []
  | p :: rest => do
    let p ← lowerPattern names p
    return p :: (← lowerPatterns names rest)

def lowerEntries (names : LibraryNames) :
    List (Python.Pattern × Python.Pattern) → Render (List (CSharp.Pattern × CSharp.Pattern))
  | [] => return []
  | (key, value) :: rest => do
    let key ← lowerPattern names key
    let value ← lowerPattern names value
    return (key, value) :: (← lowerEntries names rest)

def lowerKeywords (names : LibraryNames) :
    List (String × Python.Pattern) → Render (List (String × CSharp.Pattern))
  | [] => return []
  | (name, p) :: rest => do
    let p ← lowerPattern names p
    return (escapeIdentifier name, p) :: (← lowerKeywords names rest)

end

def isStar : Python.Pattern → Bool
  | .star _ => true
  | _ => false

/-- The pattern of a case. Against a tuple, a sequence without a star is matched by position. -/
def lowerCasePattern (names : LibraryNames) (tupleSubject : Bool) (pattern : Python.Pattern) :
    Render CSharp.Pattern :=
  match pattern with
  | .sequence items =>
    if tupleSubject && !items.any isStar then do return .positional (← lowerPatterns names items)
    else lowerPattern names pattern
  | _ => lowerPattern names pattern

end PythonToCSharp.Lowering
