/-!
Physical lines. A line ends at a line feed; a carriage return right before that line feed belongs to
the line's end and not to the line. A text that ends in a line feed has no further, empty line.
-/

namespace PythonToCSharp.Text

/-- A line, last character first, without the carriage return that ends it. -/
def dropReturn : List Char → List Char
  | '\r' :: line => line
  | line => line

/-- The lines of a text when `line` was read before it, last character first. -/
def linesFrom : List Char → List Char → List (List Char)
  | line, [] => if line.isEmpty then [] else [line.reverse]
  | line, c :: cs =>
    if c = '\n' then (dropReturn line).reverse :: linesFrom [] cs else linesFrom (c :: line) cs

/-- The lines of a text, without their ends. -/
def lineChars (cs : List Char) : List (List Char) :=
  linesFrom [] cs

def lines (s : String) : List String :=
  (lineChars s.toList).map String.ofList

/-- The texts of a list with `separator` between each two. -/
def join (separator : String) : List String → String
  | [] => ""
  | [s] => s
  | s :: rest => s ++ separator ++ join separator rest

/-- The pieces of a text between the occurrences of one character, `piece` being read before it. -/
def piecesFrom (mark : Char) : List Char → List Char → List (List Char)
  | piece, [] => [piece]
  | piece, c :: cs =>
    if c = mark then piece :: piecesFrom mark [] cs else piecesFrom mark (piece ++ [c]) cs

/-- The pieces of a text between the occurrences of one character; one more piece than occurrences.
-/
def pieces (mark : Char) (s : String) : List String :=
  (piecesFrom mark [] s.toList).map String.ofList

end PythonToCSharp.Text
