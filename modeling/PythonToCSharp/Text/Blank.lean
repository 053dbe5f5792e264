/-!
Blank characters and the operations that look at them: trimming a text at both ends and cutting it
into words.

A character is blank when it has the Unicode property White_Space; all of these characters are
listed here.
-/

namespace PythonToCSharp.Text

/-- The characters with the Unicode property White_Space. -/
def isBlank (c : Char) : Bool :=
  let n := c.toNat
  (0x9 ≤ n && n ≤ 0xD) || n == 0x20 || n == 0x85 || n == 0xA0 || n == 0x1680 ||
    (0x2000 ≤ n && n ≤ 0x200A) || n == 0x2028 || n == 0x2029 || n == 0x202F ||
    n == 0x205F || n == 0x3000

/-- A text without the blanks at its two ends. -/
def trimChars (cs : List Char) : List Char :=
  ((cs.dropWhile isBlank).reverse.dropWhile isBlank).reverse

def trim (s : String) : String :=
  String.ofList (trimChars s.toList)

/-- The maximal runs of characters that are not blank, `word` being the run read so far. -/
def wordsFrom : List Char → List Char → List (List Char)
  | word, [] => if word.isEmpty then [] else [word]
  | word, c :: cs =>
    if isBlank c then
      if word.isEmpty then wordsFrom [] cs else word :: wordsFrom [] cs
    else wordsFrom (word ++ [c]) cs

def words (cs : List Char) : List (List Char) :=
  wordsFrom [] cs

/-- The words of a text with one space between each two. -/
def unspace (s : String) : String :=
  String.intercalate " " ((words s.toList).map String.ofList)

end PythonToCSharp.Text
