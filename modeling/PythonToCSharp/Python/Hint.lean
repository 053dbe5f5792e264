import PythonToCSharp.Python.Tree
import PythonToCSharp.Text.Lines

/-!
The text of type hints. Only the forms that occur in hints have one: names, dotted names,
subscripts, unions, lists, strings and `None`.
-/

namespace PythonToCSharp.Python.Expr

open Text (join)

mutual

def hintText : Expr → String
  | .name id => id
  | .none => "None"
  | .str literal => literal.body
  | .attribute value attr => value.hintText ++ "." ++ attr
  | .subscript value index => value.hintText ++ "[" ++ join ", " (hintTexts index) ++ "]"
  | .binary left op right => left.hintText ++ " " ++ op.symbol ++ " " ++ right.hintText
  | .list items => "[" ++ join ", " (hintTexts items) ++ "]"
  | .tuple items => "[" ++ join ", " (hintTexts items) ++ "]"
  | .unsupported _ text _ => text
  | _ => ""

def hintTexts : List Expr → List String
  | [] => []
  | e :: rest => e.hintText :: hintTexts rest

end

end PythonToCSharp.Python.Expr
