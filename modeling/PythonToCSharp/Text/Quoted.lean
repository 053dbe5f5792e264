import PythonToCSharp.Text.Visible

/-!
Texts between double quotes, as they are shown to a reader. The quote, the backslash and what does
not show on its own are written as escapes.
-/

namespace PythonToCSharp.Text

/-- The spelling of a character between double quotes. -/
def quotedChar (c : Char) : String :=
  if c = '"' then "\\\""
  else if c = '\\' then "\\\\"
  else if c = '\n' then "\\n"
  else if c = '\r' then "\\r"
  else if c = '\t' then "\\t"
  else if c = '\x00' then "\\0"
  else if isVisible c then c.toString
  else "\\u\x7b" ++ String.ofList (Nat.toDigits 16 c.toNat) ++ "\x7d"

def quoted (text : String) : String :=
  "\"" ++ String.join (text.toList.map quotedChar) ++ "\""

end PythonToCSharp.Text
