/-!
Places in a source text: a line and a column, both counted from one, the column in bytes of the
UTF-8 form.
-/

namespace PythonToCSharp.Python

/-- A place in a source text, counted from one. -/
structure Span where
  line : Nat
  column : Nat
  deriving DecidableEq, Repr

def Span.first : Span :=
  ⟨1, 1⟩

/-- The place right behind a character that stands at `span`. -/
def Span.after (span : Span) (c : Char) : Span :=
  if c = '\n' then ⟨span.line + 1, 1⟩ else ⟨span.line, span.column + c.utf8Size⟩

/-- The place `offset` bytes behind `span`, where the text `cs` stands. -/
def Span.advance (span : Span) (offset : Nat) : List Char → Span
  | [] => span
  | c :: cs => if offset = 0 then span else (span.after c).advance (offset - c.utf8Size) cs

/-- The place of a byte offset of a text. -/
def Span.ofOffset (source : List Char) (offset : Nat) : Span :=
  Span.first.advance offset source

end PythonToCSharp.Python
