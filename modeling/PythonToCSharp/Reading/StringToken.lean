import PythonToCSharp.Reading.Basic
import PythonToCSharp.Text.Bytes

/-!
String tokens: letters, an opening quote mark, a body, and the same mark again.

The letters say whether the string is raw, of bytes, or an f-string. The body of an f-string is cut
at its interpolations, which are children of the token's node; the pieces between them stay as
written.
-/

namespace PythonToCSharp.Reading

open Python Concrete

/-- The two characters of which quote marks are made. -/
def isQuote (c : Char) : Bool :=
  c = '"' || c = '\''

/-- The letters before the first quote mark; none if there is no quote mark. -/
def stringLetters (cs : List Char) : List Char :=
  if cs.any isQuote then cs.takeWhile fun c => !isQuote c else []

/-- The length of the quote mark with which a text begins: three quotes or one. -/
def markLength (cs : List Char) : Nat :=
  if cs.take 3 = ['"', '"', '"'] ∨ cs.take 3 = ['\'', '\'', '\''] then 3 else 1

/-- Whether a letter, small or capital, is among the letters of a string. -/
def hasLetter (letters : List Char) (c : Char) : Bool :=
  letters.any fun letter => letter.toLower == c

/-- The bytes of a token at which its body starts and stops. -/
def bodyBounds (cs : List Char) : Nat × Nat :=
  let letters := stringLetters cs
  let mark := markLength (cs.drop letters.length)
  let start := Text.byteLength letters + mark
  (start, max (Text.byteLength cs - mark) start)

/-- The piece of a token between two of its bytes, unless it is empty. -/
def literalBetween (cs : List Char) (start stop : Nat) : List FStringPart :=
  if start < stop then [.literal (String.ofList (Text.slice cs start stop))] else []

def interpolated (t : ReadTree) : Option Expr :=
  match field? "expression" t.children with
  | some e => asExpr e
  | none => firstExpr t.children

/-- The format of an interpolation, without the colons that lead to it. -/
def formatSpec (t : ReadTree) : Option String :=
  (partOf? "format_specifier" t.children).map fun spec =>
    String.ofList (spec.text.toList.dropWhile (· = ':'))

/-- The parts of an f-string from byte `position` of its token on. `origin` is the offset of the
token, `stop` the byte at which its body stops, and the trees are its interpolations from there on.
-/
def fstringParts (cs : List Char) (origin stop : Nat) :
    Nat → List ReadTree → Option (List FStringPart)
  | position, [] => some (literalBetween cs position stop)
  | position, t :: rest => do
    let e ← interpolated t
    let following ← fstringParts cs origin stop (t.info.stop - origin) rest
    return literalBetween cs position (t.info.start - origin) ++
      .interpolation e (formatSpec t) :: following

def readString (info : Info) (children : List ReadTree) : Option Expr :=
  let cs := info.text.toList
  let letters := stringLetters cs
  let bounds := bodyBounds cs
  let raw := hasLetter letters 'r'
  if hasLetter letters 'f' then do
    let parts ← fstringParts cs info.start bounds.2 bounds.1 (partsOf "interpolation" children)
    return .fstring parts raw
  else
    some (.str ⟨String.ofList (Text.slice cs bounds.1 bounds.2), raw, hasLetter letters 'b'⟩)

end PythonToCSharp.Reading
