import PythonToCSharp.Toml.Fault

/-!
The characters of TOML: blanks, comments and line ends.

A reader takes the characters that are left and gives what it has read with the characters behind
it, or the fault that it has found.
-/

namespace PythonToCSharp.Toml

/-- The blanks within a line. -/
def isBlank (c : Char) : Bool :=
  c = ' ' || c = '\t'

/-- Characters that may stand in comments and strings as they are: no control character but the tab.
-/
def isPlain (c : Char) : Bool :=
  c = '\t' || (0x20 ≤ c.val && c.val ≠ 0x7f)

def skipBlanks (cs : List Char) : List Char :=
  cs.dropWhile isBlank

def skipComment : List Char → List Char
  | '#' :: rest => rest.dropWhile isPlain
  | cs => cs

/-- The characters behind a line end. -/
def newline? : List Char → Option (List Char)
  | '\n' :: rest => some rest
  | '\r' :: '\n' :: rest => some rest
  | _ => none

/-- The characters behind a line end, which may also be the end of the text. -/
def lineEnd? : List Char → Option (List Char)
  | [] => some []
  | cs => newline? cs

/-- The characters behind the rest of a line that holds nothing more but a comment. -/
def restOfLine (cs : List Char) : Except Fault (List Char) :=
  let rest := skipComment (skipBlanks cs)
  match lineEnd? rest with
  | some rest => .ok rest
  | none => .error { rest, expected := [.newline, .mark "#"] }

/-- The characters behind blanks, line ends and comments. A comment has to end with a line end. -/
def skipSpace (inComment : Bool) : List Char → Except Fault (List Char)
  | [] => if inComment then .error { rest := [], final := false } else .ok []
  | '\r' :: '\n' :: rest => skipSpace false rest
  | c :: rest =>
    if c = '\n' then skipSpace false rest
    else if inComment then
      if isPlain c then skipSpace true rest else .error { rest, final := false }
    else if c = '#' then skipSpace true rest
    else if isBlank c then skipSpace false rest
    else if c = '\r' then .error { rest, final := false }
    else .ok (c :: rest)

end PythonToCSharp.Toml
