import PythonToCSharp.CSharp.ExpressionText

/-!
The patterns of `switch` and their text. `or` binds more loosely than `and`, so alternatives that
get a name stand between parentheses; no other pattern needs them.
-/

namespace PythonToCSharp.CSharp

open Text (join)

inductive Pattern where
  /-- `_` -/
  | discard
  /-- `var name` -/
  | var (name : String)
  /-- A constant expression. -/
  | constant (value : Expr)
  /-- A dotted constant, as spelled. -/
  | path (text : String)
  | list (items : List Pattern)
  | positional (items : List Pattern)
  /-- The rest of a list, with a name or without. -/
  | slice (name : Option String)
  /-- Entries between braces, and a name for what is left. -/
  | entries (items : List (Pattern × Pattern)) (rest : Option String)
  /-- A type with the patterns of its parts, by position and by name. -/
  | type (name : String) (positional : List Pattern) (properties : List (String × Pattern))
  | or (alternatives : List Pattern)
  /-- `pattern and var name` -/
  | named (pattern : Pattern) (name : String)
  /-- Source text kept as written. -/
  | verbatim (text : String)

instance : Inhabited Pattern := ⟨.discard⟩

def restText : Option String → String
  | none => ".."
  | some name => ".. var " ++ name

def positionalSuffix (items : List String) : String :=
  if items.isEmpty then "" else "(" ++ join ", " items ++ ")"

def propertySuffix (items : List String) : String :=
  if items.isEmpty then "" else " " ++ braced items

def Pattern.isOr : Pattern → Bool
  | .or _ => true
  | _ => false

namespace Pattern

mutual

def text : Pattern → String
  | .discard => "_"
  | .var name => "var " ++ name
  | .constant value => value.text
  | .path spelled => spelled
  | .list items => "[" ++ join ", " (texts items) ++ "]"
  | .positional items => "(" ++ join ", " (texts items) ++ ")"
  | .slice name => restText name
  | .entries items remaining =>
    braced (entryTexts items ++ (remaining.map fun name => restText (some name)).toList)
  | .type name items properties =>
    name ++ positionalSuffix (texts items) ++ propertySuffix (propertyTexts properties)
  | .or alternatives => join " or " (texts alternatives)
  | .named pattern name => enclose pattern.isOr pattern.text ++ " and var " ++ name
  | .verbatim source => source

def texts : List Pattern → List String
  | [] => []
  | p :: rest => p.text :: texts rest

def entryTexts : List (Pattern × Pattern) → List String
  | [] => []
  | (key, value) :: rest => (key.text ++ ": " ++ value.text) :: entryTexts rest

def propertyTexts : List (String × Pattern) → List String
  | [] => []
  | (name, p) :: rest => (name ++ ": " ++ p.text) :: propertyTexts rest

end

end Pattern

end PythonToCSharp.CSharp
