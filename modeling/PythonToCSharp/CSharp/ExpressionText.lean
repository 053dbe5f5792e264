import PythonToCSharp.CSharp.Expression
import PythonToCSharp.Text.Lines

/-!
C# expressions as text. Parentheses stand exactly where an operand binds more loosely than its place
asks for, and around an operand that would join its sign to the sign before it.
-/

namespace PythonToCSharp.CSharp

open Text (join)

/-- A text between parentheses, if it needs them. -/
def enclose (needed : Bool) (text : String) : String :=
  if needed then "(" ++ text ++ ")" else text

/-- The text of an expression at a place that asks for `least`, given its own level and text. -/
def placed (least level : Level) (text : String) : String :=
  enclose (level < least) text

/-- The text of an operand behind a unary operator. -/
def signed (op : UnaryOp) (operand : String) : String :=
  op.symbol.toString ++ enclose (op.isSign && operand.toList.head? == some op.symbol) operand

def braced (items : List String) : String :=
  "\x7b " ++ join ", " items ++ " \x7d"

def newCollection (type : String) (items : List String) : String :=
  if items.isEmpty then "new " ++ type ++ "()" else "new " ++ type ++ " " ++ braced items

def formatSuffix : Option String → String
  | none => ""
  | some format => if format = "" then "" else ":" ++ format

/-- A range, whose bounds are spelled out when there is a step. -/
def rangeText (lower upper step : Option String) : String :=
  match step with
  | none => lower.getD "" ++ ".." ++ upper.getD ""
  | some step => lower.getD "0" ++ ".." ++ upper.getD "^0" ++ ".." ++ step

/-- The end of a query, from the texts of its element and its second value. -/
def selectText (element : String) : Option String → String
  | none => "select " ++ element
  | some value => "select (" ++ element ++ ", " ++ value ++ ")"

namespace Expr

mutual

def text : Expr → String
  | .name spelled => spelled
  | .literal spelled => spelled
  | .verbatim source => source
  | .interpolated raw parts => (if raw then "$@\"" else "$\"") ++ partsText parts ++ "\""
  | .binary op left right =>
    placed op.level left.level left.text ++ " " ++ op.symbol ++ " " ++
      placed op.level.tighter right.level right.text
  | .unary op operand => signed op (placed .unary operand.level operand.text)
  | .conditional test body orelse =>
    placed .or test.level test.text ++ " ? " ++ placed .conditional body.level body.text ++ " : " ++
      placed .conditional orelse.level orelse.text
  | .lambda params body => "(" ++ join ", " params ++ ") => " ++ body.text
  | .assign target value => target ++ " = " ++ value.text
  | .member value field => placed .primary value.level value.text ++ "." ++ field
  | .index value arguments =>
    placed .primary value.level value.text ++ "[" ++ join ", " (texts arguments) ++ "]"
  | .range lower upper step => rangeText (boundText lower) (boundText upper) (boundText step)
  | .call func arguments =>
    placed .primary func.level func.text ++ "(" ++ join ", " (argumentTexts arguments) ++ ")"
  | .create type arguments =>
    "new " ++ placed .primary type.level type.text ++ "(" ++
      join ", " (argumentTexts arguments) ++ ")"
  | .collection type items => newCollection type (texts items)
  | .dictionary type entries => newCollection type (entryTexts entries)
  | .tuple items => "(" ++ join ", " (texts items) ++ ")"
  | .query clauses element value =>
    join " " (clauseTexts clauses ++
      [selectText (placed .conditional element.level element.text) (optionText value)])
  | .await value => "await " ++ placed .unary value.level value.text
  | .yield value =>
    match optionText value with
    | none => "yield"
    | some value => "yield " ++ value
  | .yieldFrom value => "yield from " ++ value.text
  | .spread value => "*" ++ placed .unary value.level value.text
  | .missing => ""

def texts : List Expr → List String
  | [] => []
  | e :: rest => e.text :: texts rest

def optionText : Option Expr → Option String
  | none => none
  | some e => some e.text

def boundText : Option Expr → Option String
  | none => none
  | some e => some (placed .unary e.level e.text)

/-- The text of the pieces of an interpolated string. A bare conditional would end a hole at its
colon. -/
def partsText : List InterpolatedPart → String
  | [] => ""
  | .text segment :: rest => segment ++ partsText rest
  | .hole value format :: rest =>
    "\x7b" ++ placed .or value.level value.text ++ formatSuffix format ++ "\x7d" ++ partsText rest

def argumentTexts : List Argument → List String
  | [] => []
  | .positional value :: rest => value.text :: argumentTexts rest
  | .named label value :: rest => (label ++ ": " ++ value.text) :: argumentTexts rest

def entryTexts : List Entry → List String
  | [] => []
  | .pair key value :: rest => braced [key.text, value.text] :: entryTexts rest
  | .bare value :: rest => value.text :: entryTexts rest

def clauseTexts : List Clause → List String
  | [] => []
  | .from_ target source :: rest =>
    ("from " ++ target.text ++ " in " ++ placed .conditional source.level source.text) ::
      clauseTexts rest
  | .let_ target value :: rest =>
    ("let " ++ target.text ++ " = " ++ value.text) :: clauseTexts rest
  | .where_ test :: rest => ("where " ++ placed .conditional test.level test.text) ::
      clauseTexts rest

end

/-- The text of an expression at a place that asks for a level. -/
def textAt (least : Level) (e : Expr) : String :=
  placed least e.level e.text

end Expr

end PythonToCSharp.CSharp
