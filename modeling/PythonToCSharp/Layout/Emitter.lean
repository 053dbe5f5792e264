/-!
A buffer for lines of text that knows how deep the next line stands. A line that is not empty is
written behind one indentation unit per level; closing more blocks than are open is refused and
changes nothing.
-/

namespace PythonToCSharp.Layout

/-- Refusal to go below level zero. -/
structure IndentUnderflow where
  deriving DecidableEq, Repr

def IndentUnderflow.message (_ : IndentUnderflow) : String :=
  "indent level would drop below zero"

/-- Lines written so far, with the width of one level and the level of the next line. -/
structure Emitter where
  width : Nat
  level : Nat := 0
  text : String := ""
  deriving DecidableEq, Repr

/-- The blanks before a line that stands `level` levels deep. -/
def indentation (width level : Nat) : String :=
  String.ofList (List.replicate (width * level) ' ')

/-- A line with its end, `level` levels deep; an empty line has no blanks. -/
def lineText (width level : Nat) (line : String) : String :=
  if line = "" then "\n" else indentation width level ++ line ++ "\n"

namespace Emitter

def isEmpty (out : Emitter) : Bool :=
  out.text = ""

def line (out : Emitter) (text : String) : Emitter :=
  { out with text := out.text ++ lineText out.width out.level text }

/-- Writes text that has its indentation and line ends already. -/
def raw (out : Emitter) (text : String) : Emitter :=
  { out with text := out.text ++ text }

def indent (out : Emitter) : Emitter :=
  { out with level := out.level + 1 }

def dedent (out : Emitter) : Except IndentUnderflow Emitter :=
  match out.level with
  | 0 => .error {}
  | level + 1 => .ok { out with level := level }

def openBlock (out : Emitter) : Emitter :=
  (out.line "\x7b").indent

def closeBlock (out : Emitter) : Except IndentUnderflow Emitter :=
  out.dedent.map fun out => out.line "\x7d"

end Emitter

end PythonToCSharp.Layout
