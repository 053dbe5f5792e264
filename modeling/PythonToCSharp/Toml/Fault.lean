import PythonToCSharp.Text.Bytes
import PythonToCSharp.Text.Lines

/-!
What is wrong with a TOML document, and where.

A fault is told by the place where the reading stopped, by what was being read there, by what could
have stood there and by a cause, as far as they are known. A fault that is not final leaves open
whether something else can be read at the same place.
-/

namespace PythonToCSharp.Toml

/-- What was being read. -/
inductive Subject where
  | key | header | string | basicString | basicBlock | literalString | literalBlock
  | escape | shortCode | longCode
  | integer | hexadecimal | octal | binary | float
  | dateTime | time | offset
  | list | table
  deriving DecidableEq, Repr

def Subject.name : Subject → String
  | .key => "key"
  | .header => "table header"
  | .string => "string"
  | .basicString => "basic string"
  | .basicBlock => "multiline basic string"
  | .literalString => "literal string"
  | .literalBlock => "multiline literal string"
  | .escape => "escape sequence"
  | .shortCode => "unicode 4-digit hex code"
  | .longCode => "unicode 8-digit hex code"
  | .integer => "integer"
  | .hexadecimal => "hexadecimal integer"
  | .octal => "octal integer"
  | .binary => "binary integer"
  | .float => "floating-point number"
  | .dateTime => "date-time"
  | .time => "time"
  | .offset => "time offset"
  | .list => "array"
  | .table => "inline table"

/-- What could have stood at a place. -/
inductive Expectation where
  | newline
  | mark (text : String)
  | digit
  | leadingDigit
  deriving DecidableEq, Repr

def Expectation.text : Expectation → String
  | .newline => "newline"
  | .mark text => "`" ++ text ++ "`"
  | .digit => "digit"
  | .leadingDigit => "leading digit"

/-- Why a part of a document cannot be taken, though it is well written. -/
inductive Cause where
  /-- A key that is there already, in the table at a path if that is known. -/
  | duplicate (key : String) (table : Option (List String))
  /-- A path that leads through a value which is no table. -/
  | extended (path : List String) (kind : String)
  | outOfRange
  | tooDeep
  | tooLarge
  | tooSmall
  deriving DecidableEq, Repr

def Cause.message : Cause → String
  | .duplicate key none => "duplicate key `" ++ key ++ "`"
  | .duplicate key (some []) => "duplicate key `" ++ key ++ "` in document root"
  | .duplicate key (some path) => "duplicate key `" ++ key ++ "` in table `" ++
      Text.join "." path ++ "`"
  | .extended path kind =>
    "dotted key `" ++ Text.join "." path ++ "` attempted to extend non-table type (" ++ kind ++ ")"
  | .outOfRange => "value is out of range"
  | .tooDeep => "recursion limit exceeded"
  | .tooLarge => "number too large to fit in target type"
  | .tooSmall => "number too small to fit in target type"

structure Fault where
  /-- What is left of the document where the fault stands. -/
  rest : List Char
  subject : Option Subject := none
  expected : List Expectation := []
  cause : Option Cause := none
  /-- Whether nothing else can be read in place of this. -/
  final : Bool := true
  deriving DecidableEq, Repr

namespace Fault

/-- A fault within something larger, which names it only if nothing within does. -/
def within (subject : Subject) (fault : Fault) : Fault :=
  { fault with subject := fault.subject.or (some subject) }

/-- A fault at a place where something else could have stood as well. -/
def expecting (expected : List Expectation) (fault : Fault) : Fault :=
  { fault with expected := fault.expected ++ expected }

/-- A fault in a place where nothing else can be read. -/
def settled (fault : Fault) : Fault :=
  { fault with final := true }

/-- What is said of a fault, a line for each of its parts. -/
def message (fault : Fault) : String :=
  let expected :=
    if fault.expected.isEmpty then none
    else some ("expected " ++ Text.join ", " (fault.expected.map Expectation.text))
  Text.join "\n" <|
    (fault.subject.map fun subject => "invalid " ++ subject.name).toList ++ expected.toList ++
      (fault.cause.map Cause.message).toList

end Fault

/-- Reads something else where the first reading leaves that open. -/
def orElse {α : Type} (first : Except Fault α) (second : Unit → Except Fault α) : Except Fault α :=
  match first with
  | .ok found => .ok found
  | .error fault => if fault.final then .error fault else second ()

/-! ## Places -/

/-- A place in a text, by the number of lines before it and of characters before it on its line. -/
structure Position where
  line : Nat
  column : Nat
  deriving DecidableEq, Repr

def lastLine (cs : List Char) : List Char :=
  (cs.reverse.takeWhile (· ≠ '\n')).reverse

/-- The place where a rest of a text starts. The end of a text is the place behind its last
character, on the same line even if that is a line end. Before a character beyond ASCII the column
counts bytes. -/
def Position.ofRest (before rest : List Char) : Position :=
  match rest with
  | [] => ⟨before.dropLast.count '\n', (lastLine before.dropLast).length + before.length.min 1⟩
  | c :: _ =>
    let line := lastLine before
    ⟨before.count '\n', if c.val < 0x80 then line.length else Text.byteLength line⟩

/-- Characters that fill a place. -/
def fill (count : Nat) (c : Char) : String :=
  String.ofList (List.replicate count c)

/-- The report of a fault in a text: its place, the line with a mark below it, and what is said of
it. -/
def Fault.report (text : String) (fault : Fault) : String :=
  let cs := text.toList
  let position := Position.ofRest (cs.take (cs.length - fault.rest.length)) fault.rest
  let line := (Text.pieces '\n' text)[position.line]?.getD ""
  let number := toString (position.line + 1)
  let margin := fill (number.length + 1) ' ' ++ "|"
  let width := min (Text.byteLength (fault.rest.take 1))
    (Text.byteLength line.toList - position.column)
  "TOML parse error at line " ++ number ++ ", column " ++ toString (position.column + 1) ++ "\n" ++
    margin ++ "\n" ++
    number ++ " | " ++ line ++ "\n" ++
    margin ++ fill (position.column + 1) ' ' ++ fill (max 1 width) '^' ++ "\n" ++
    fault.message ++ "\n"

end PythonToCSharp.Toml
