import PythonToCSharp.Text.Digits
import PythonToCSharp.Toml.Scan

/-!
The strings and keys of TOML.

A string is read piece by piece; a piece is a character as it stands, an escape or, in a block, a
line end. Readers that go from piece to piece take a bound on their steps, for which the number of
characters is enough, because a piece has at least one.
-/

namespace PythonToCSharp.Toml

open Text (hexValue? valueOf)

/-! ## Pieces -/

/-- The character that a single letter behind a backslash stands for. -/
def shortEscape? : Char → Option Char
  | 'b' => some '\x08'
  | 'f' => some '\x0c'
  | 'n' => some '\n'
  | 'r' => some '\r'
  | 't' => some '\t'
  | '\\' => some '\\'
  | '"' => some '"'
  | _ => none

/-- The character with a code in a number of hexadecimal digits. -/
def coded (count : Nat) (subject : Subject) (cs : List Char) : Except Fault (Char × List Char) :=
  let digits := (cs.take count).takeWhile fun c => (hexValue? c).isSome
  let code := valueOf 16 digits
  if digits.length ≠ count then .error { rest := cs, subject }
  else if code.isValidChar then .ok (Char.ofNat code, cs.drop count)
  else .error { rest := cs, subject, cause := some .outOfRange }

/-- The marks that may stand behind a backslash. -/
def escapeMarks : List Expectation :=
  ["b", "f", "n", "r", "t", "u", "U", "\\", "\""].map .mark

/-- The character that an escape stands for, behind its backslash. A fault stands behind the letter,
or before it if the letter is beyond ASCII. -/
def escaped : List Char → Except Fault (Char × List Char)
  | [] => .error { rest := [], final := false }
  | 'u' :: rest => coded 4 .shortCode rest
  | 'U' :: rest => coded 8 .longCode rest
  | c :: rest =>
    match shortEscape? c with
    | some meant => .ok (meant, rest)
    | none =>
      .error {
        rest := if c.val < 0x80 then rest else c :: rest
        subject := some .escape
        expected := escapeMarks }

def basicPiece : List Char → Except Fault (List Char × List Char)
  | '\\' :: rest => do
    let (c, rest) ← escaped rest
    return ([c], rest)
  | c :: rest =>
    if isPlain c && c ≠ '"' then .ok ([c], rest)
    else .error { rest := c :: rest, final := false }
  | [] => .error { rest := [], final := false }

def literalPiece : List Char → Except Fault (List Char × List Char)
  | c :: rest =>
    if isPlain c && c ≠ '\'' then .ok ([c], rest)
    else .error { rest := c :: rest, final := false }
  | [] => .error { rest := [], final := false }

/-- A piece of a block, where lines may end. -/
def blockPiece (piece : List Char → Except Fault (List Char × List Char)) (cs : List Char) :
    Except Fault (List Char × List Char) :=
  match newline? cs with
  | some rest => .ok (['\n'], rest)
  | none => piece cs

/-- The characters behind blanks and line ends. -/
def skipLines : List Char → List Char
  | '\r' :: '\n' :: rest => skipLines rest
  | c :: rest => if isBlank c || c = '\n' then skipLines rest else c :: rest
  | [] => []

/-- A piece of a block between double quotes. A backslash at the end of a line joins it with the
next text. -/
def basicBlockPiece (cs : List Char) : Except Fault (List Char × List Char) :=
  match cs with
  | '\\' :: rest =>
    if (newline? (skipBlanks rest)).isSome then .ok ([], skipLines rest) else basicPiece cs
  | _ => blockPiece basicPiece cs

/-! ## Strings -/

/-- As many pieces as there are. -/
def pieces (piece : List Char → Except Fault (List Char × List Char)) :
    Nat → List Char → Except Fault (List Char × List Char)
  | 0, cs => .ok ([], cs)
  | steps + 1, cs =>
    match piece cs with
    | .error fault => if fault.final then .error fault else .ok ([], cs)
    | .ok (text, rest) => do
      let (more, rest) ← pieces piece steps rest
      return (text ++ more, rest)

/-- The rest of a string up to the quote that closes it. -/
def quotedText (quote : Char) (subject : Subject)
    (piece : List Char → Except Fault (List Char × List Char))
    (cs : List Char) : Except Fault (List Char × List Char) := do
  let (text, rest) ← pieces piece cs.length cs
  match rest with
  | c :: behind => if c = quote then return (text, behind) else throw { rest, subject }
  | [] => throw { rest, subject }

/-- The rest of a block up to the three quotes that close it. Quotes right before those belong to
the text, as do one or two quotes that a piece follows. Where none follows, a fault stands at the
quotes, or behind them if `passing` and there is something behind them. -/
def blockText (quote : Char) (passing : Bool) (subject : Subject)
    (piece : List Char → Except Fault (List Char × List Char)) :
    Nat → List Char → Except Fault (List Char × List Char)
  | 0, cs => .error { rest := cs, subject }
  | steps + 1, cs =>
    let quotes := (cs.takeWhile (· = quote)).take 5
    if 3 ≤ quotes.length then .ok (quotes.drop 3, cs.drop quotes.length)
    else
      let behind := cs.drop quotes.length
      match piece behind with
      | .error fault =>
        if fault.final then .error fault
        else .error { rest := if passing && !behind.isEmpty then behind else cs, subject }
      | .ok (text, rest) => do
        let (more, rest) ← blockText quote passing subject piece steps rest
        return (quotes ++ text ++ more, rest)

/-- A block behind the three quotes that open it and the line end that may follow them. -/
def block (quote : Char) (passing : Bool) (subject : Subject)
    (piece : List Char → Except Fault (List Char × List Char)) (cs : List Char) :
    Except Fault (List Char × List Char) :=
  let cs := (newline? cs).getD cs
  blockText quote passing subject piece (cs.length + 1) cs

/-- A string between single or double quotes on one line. -/
def lineText : List Char → Except Fault (List Char × List Char)
  | '"' :: rest => quotedText '"' .basicString basicPiece rest
  | '\'' :: rest => quotedText '\'' .literalString literalPiece rest
  | cs => .error { rest := cs, final := false }

def anyText : List Char → Except Fault (List Char × List Char)
  | '"' :: '"' :: '"' :: rest => block '"' true .basicBlock basicBlockPiece rest
  | '\'' :: '\'' :: '\'' :: rest => block '\'' false .literalBlock (blockPiece literalPiece) rest
  | cs => lineText cs

/-! ## Keys -/

/-- The characters of a key without quotes. -/
def isKeyChar (c : Char) : Bool :=
  c.isAlphanum || c = '-' || c = '_'

/-- One segment of a key, with the blanks around it. -/
def segment (cs : List Char) : Except Fault (String × List Char) :=
  let cs := skipBlanks cs
  match cs.takeWhile isKeyChar with
  | [] => do
    let (text, rest) ← lineText cs
    return (String.ofList text, skipBlanks rest)
  | name => .ok (String.ofList name, skipBlanks (cs.dropWhile isKeyChar))

/-- The segments of a key that follow its first one. A point that no segment follows is left. -/
def segments : Nat → List Char → Except Fault (List String × List Char)
  | steps + 1, '.' :: rest =>
    match segment rest with
    | .error fault => if fault.final then .error fault else .ok ([], '.' :: rest)
    | .ok (name, rest) => do
      let (more, rest) ← segments steps rest
      return (name :: more, rest)
  | _, cs => .ok ([], cs)

/-- The greatest depth of keys and of nested values. -/
def depthLimit : Nat := 79

/-- A key, with its segments. -/
def key (cs : List Char) : Except Fault (List String × List Char) := do
  let (path, rest) ← Except.mapError (Fault.within .key) do
    let (first, rest) ← segment cs
    let (more, rest) ← segments rest.length rest
    return (first :: more, rest)
  if depthLimit < path.length then throw { rest := cs, cause := some .tooDeep, final := false }
  return (path, rest)

/-- A segment of a key as it is written, with quotes where it needs them. -/
def keyText (name : String) : String :=
  let cs := name.toList
  if !cs.isEmpty && cs.all isKeyChar then name
  else if cs.all (fun c => isPlain c && c ≠ '"' && c ≠ '\\') then "\"" ++ name ++ "\""
  else if cs.all (fun c => isPlain c && c ≠ '\'') then "'" ++ name ++ "'"
  else "\"" ++ String.join (cs.map spelled) ++ "\""
where
  /-- The spelling of a character between double quotes. -/
  spelled (c : Char) : String :=
    match c with
    | '\x08' => "\\b"
    | '\t' => "\\t"
    | '\n' => "\\n"
    | '\x0c' => "\\f"
    | '\r' => "\\r"
    | '"' => "\\\""
    | '\\' => "\\\\"
    | c =>
      if isPlain c then c.toString
      else
        let digits := (Nat.toDigits 16 c.toNat).map Char.toUpper
        "\\u" ++ fill (4 - digits.length) '0' ++ String.ofList digits

end PythonToCSharp.Toml
