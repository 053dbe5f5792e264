/-!
JSON values whose objects keep the order of their fields, and their two printed forms: on one line,
and with one member per line and two spaces per level.
-/

namespace PythonToCSharp

/-- A JSON value; numbers are whole and not negative. -/
inductive Json where
  | null
  | bool (value : Bool)
  | num (value : Nat)
  | str (value : String)
  | arr (items : List Json)
  | obj (fields : List (String × Json))

namespace Json

def ofOption {α : Type} (f : α → Json) : Option α → Json
  | none => .null
  | some a => f a

def ofList {α : Type} (f : α → Json) (items : List α) : Json :=
  .arr (items.map f)

/-- An object with one field, the way a tagged alternative is written. -/
def tagged (tag : String) (value : Json) : Json :=
  .obj [(tag, value)]

def hexDigit (n : Nat) : Char :=
  if n < 10 then Char.ofNat (48 + n) else Char.ofNat (87 + n)

/-- A character inside a string: quotes, backslashes and control characters are escaped. -/
def escapeChar (c : Char) : List Char :=
  if c = '"' then ['\\', '"']
  else if c = '\\' then ['\\', '\\']
  else if c = '\n' then ['\\', 'n']
  else if c = '\r' then ['\\', 'r']
  else if c = '\t' then ['\\', 't']
  else if c.toNat = 8 then ['\\', 'b']
  else if c.toNat = 12 then ['\\', 'f']
  else if c.toNat < 32 then ['\\', 'u', '0', '0', hexDigit (c.toNat / 16), hexDigit (c.toNat % 16)]
  else [c]

def quote (s : String) : String :=
  "\"" ++ String.ofList (s.toList.flatMap escapeChar) ++ "\""

mutual

/-- The value on one line, without blanks. -/
def compact : Json → String
  | .null => "null"
  | .bool value => if value then "true" else "false"
  | .num value => toString value
  | .str value => quote value
  | .arr items => "[" ++ compactItems items ++ "]"
  | .obj fields => "\x7b" ++ compactFields fields ++ "\x7d"

def compactItems : List Json → String
  | [] => ""
  | [item] => item.compact
  | item :: rest => item.compact ++ "," ++ compactItems rest

def compactFields : List (String × Json) → String
  | [] => ""
  | [(key, value)] => quote key ++ ":" ++ value.compact
  | (key, value) :: rest => quote key ++ ":" ++ value.compact ++ "," ++ compactFields rest

end

/-- The line break before a member that stands `level` levels deep. -/
def freshLine (level : Nat) : String :=
  "\n" ++ String.ofList (List.replicate (2 * level) ' ')

mutual

/-- The value with each member on a line of its own, `level` levels deep. -/
def prettyAt (level : Nat) : Json → String
  | .null => "null"
  | .bool value => if value then "true" else "false"
  | .num value => toString value
  | .str value => quote value
  | .arr [] => "[]"
  | .arr (item :: rest) => "[" ++ prettyItems (level + 1) (item :: rest) ++ freshLine level ++ "]"
  | .obj [] => "\x7b\x7d"
  | .obj (field :: rest) =>
    "\x7b" ++ prettyFields (level + 1) (field :: rest) ++ freshLine level ++ "\x7d"

def prettyItems (level : Nat) : List Json → String
  | [] => ""
  | [item] => freshLine level ++ item.prettyAt level
  | item :: rest => freshLine level ++ item.prettyAt level ++ "," ++ prettyItems level rest

def prettyFields (level : Nat) : List (String × Json) → String
  | [] => ""
  | [(key, value)] => freshLine level ++ quote key ++ ": " ++ value.prettyAt level
  | (key, value) :: rest =>
    freshLine level ++ quote key ++ ": " ++ value.prettyAt level ++ "," ++ prettyFields level rest

end

/-- The value with each member on a line of its own. -/
def pretty (value : Json) : String :=
  value.prettyAt 0

end Json

end PythonToCSharp
