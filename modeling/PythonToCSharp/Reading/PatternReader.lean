import PythonToCSharp.Reading.Basic
import PythonToCSharp.Text.Blank

/-!
Nodes as patterns of `match`. A pattern that holds a literal reads it as an expression; a kind of
node that is no pattern is kept as it is written.
-/

namespace PythonToCSharp.Reading

open Python Concrete

def listedPatterns (children : List ReadTree) : Option (List Pattern) :=
  asPatterns (parts children)

/-- A case pattern wraps one pattern, or is a bare `_`, or a number with a minus sign before it. -/
def readCasePattern (info : Info) (children : List ReadTree) : Option Pattern :=
  let text := Text.trimChars info.text.toList
  match parts children with
  | [] => if text = ['_'] then some .wildcard else some (unsupportedPattern info)
  | [only] =>
    if text.head? = some '-' ∧ (only.kind = "integer" ∨ only.kind = "float") then
      (asExpr only).map fun value => .literal (.unary .neg value)
    else asPattern only
  | _ => some (unsupportedPattern info)

def readAsPattern (info : Info) (children : List ReadTree) : Option Pattern :=
  match parts children with
  | inner :: second :: rest =>
    (asPattern inner).map fun pattern => .asName pattern ((second :: rest).getLastD second).text
  | _ => some (unsupportedPattern info)

/-- A mapping pattern: its keys with their values in order, and the name for the rest. -/
def readDictPattern (children : List ReadTree) : Option Pattern := do
  let items ← ((fields "key" children).zip (fields "value" children)).mapM fun pair => do
    return (← asPattern pair.1, ← asPattern pair.2)
  let rest := (partOf? "splat_pattern" children).bind fun splat => part? splat.children
  return .mapping items (rest.map Concrete.Tree.text)

/-- A part of a class pattern: by position, by keyword, or a keyword part that lacks its name or
value. -/
inductive ClassPart where
  | positional (pattern : Pattern)
  | keyword (name : String) (pattern : Pattern)
  | broken

def readClassPart (t : ReadTree) : Option ClassPart :=
  match if t.kind = "case_pattern" then part? t.children else some t with
  | some inner =>
    if inner.kind = "keyword_pattern" then
      match parts inner.children with
      | name :: value :: _ => (asPattern value).map (.keyword name.text)
      | _ => some .broken
    else (asPattern t).map .positional
  | none => (asPattern t).map .positional

/-- The parts of a class pattern in order, up to the first that is broken or cannot be read. -/
def readClassParts : List ReadTree → Option (List ClassPart)
  | [] => some []
  | t :: rest =>
    match readClassPart t with
    | none => none
    | some .broken => some [.broken]
    | some part => (readClassParts rest).map (part :: ·)

def readClassPattern (info : Info) (children : List ReadTree) : Option Pattern := do
  let cls ← partOf? "dotted_name" children
  let found ← readClassParts ((parts children).filter fun t => t.kind != "dotted_name")
  if found.any fun part => part matches .broken then
    return unsupportedPattern info
  else
    let positional := found.filterMap fun
      | .positional pattern => some pattern
      | _ => none
    let keywords := found.filterMap fun
      | .keyword name pattern => some (name, pattern)
      | _ => none
    return .classPattern cls.text positional keywords

/-- `*rest` in a sequence; `*_` names nothing. -/
def readSplatPattern (children : List ReadTree) : Pattern :=
  .star (((part? children).map Concrete.Tree.text).filter (· != "_"))

/-- A name: `_`, a dotted constant, or a name to bind. -/
def readNamePattern (text : String) : Pattern :=
  if text = "_" then .wildcard
  else if text.toList.contains '.' then .value text
  else .capture text

/-- A node as a pattern; `expr` is what it is as an expression. -/
def readPattern (info : Info) (children : List ReadTree) (expr : Option Expr) : Option Pattern :=
  match info.kind with
  | "case_pattern" => readCasePattern info children
  | "as_pattern" => readAsPattern info children
  | "union_pattern" => (listedPatterns children).map .either
  | "list_pattern" | "tuple_pattern" => (listedPatterns children).map .sequence
  | "dict_pattern" => readDictPattern children
  | "class_pattern" => readClassPattern info children
  | "splat_pattern" => some (readSplatPattern children)
  | "dotted_name" | "identifier" => some (readNamePattern info.text)
  | "string" | "concatenated_string" | "integer" | "float" | "true" | "false" | "none" =>
    expr.map .literal
  | _ => some (unsupportedPattern info)

end PythonToCSharp.Reading
