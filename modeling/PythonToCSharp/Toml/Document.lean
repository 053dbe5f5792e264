import PythonToCSharp.Toml.Entries
import PythonToCSharp.Toml.Moment
import PythonToCSharp.Toml.Number

/-!
Values and whole documents of TOML.

Each reader of nested values takes a bound on its steps, for which the number of characters is
enough, because each step uses up at least one.
-/

namespace PythonToCSharp.Toml

open Config (Setting Table)

/-! ## Values -/

/-- What is no value. It is taken for a string without quotes. -/
def unquoted (cs : List Char) : Fault :=
  { rest := cs, subject := some .string, expected := [.mark "\"", .mark "'"], final := false }

/-- A value that holds no others. -/
def scalar (cs : List Char) : Except Fault (Setting × List Char) :=
  match cs with
  | [] => .error { rest := [], final := false }
  | 't' :: 'r' :: 'u' :: 'e' :: rest => .ok (.bool true, rest)
  | 'f' :: 'a' :: 'l' :: 's' :: 'e' :: rest => .ok (.bool false, rest)
  | 'i' :: 'n' :: 'f' :: _ => special cs
  | 'n' :: 'a' :: 'n' :: _ => special cs
  | c :: _ =>
    if c = '"' || c = '\'' then do
      let (text, rest) ← anyText cs
      return (.str (String.ofList text), rest)
    else if c.isDigit || c = '+' || c = '-' then orElse (moment cs) fun _ => number cs
    else if c = '_' then
      .error { rest := cs, subject := some .integer, expected := [.leadingDigit], final := false }
    else if c = '.' then
      .error { rest := cs, subject := some .float, expected := [.leadingDigit], final := false }
    else if c = 't' || c = 'f' then .error (unquoted cs).settled
    else .error (unquoted cs)

/-- The table of dotted keys with their values. -/
def inlineTable (pairs : List (List String × Setting)) : Except Cause Setting := do
  let entries ← pairs.foldlM (fun entries pair => assign none pair.2 [] true pair.1 entries) []
  return .table (settings entries)

/-- The characters behind the equals sign of a pair. -/
def skipEquals : List Char → Except Fault (List Char)
  | '=' :: rest => .ok rest
  | cs => .error { rest := cs, expected := [.mark ".", .mark "="] }

/-- The characters behind a comma, if there is one. -/
def skipComma : List Char → List Char
  | ',' :: rest => rest
  | cs => cs

/-- What is left of a list behind its items. -/
def closeList (cs : List Char) : Except Fault (List Char) := do
  match ← (skipSpace false cs).mapError Fault.settled with
  | ']' :: rest => return rest
  | rest => throw { rest, subject := some .list, expected := [.mark "]"] }

/-- What is left of a table between braces behind its pairs. -/
def closeTable (cs : List Char) : Except Fault (List Char) :=
  match skipBlanks cs with
  | '\x7d' :: rest => .ok rest
  | rest => .error { rest, subject := some .table, expected := [.mark "\x7d"] }

mutual

/-- A value at a depth of nesting. -/
def value (steps depth : Nat) (cs : List Char) : Except Fault (Setting × List Char) :=
  match steps with
  | 0 => .error { rest := cs }
  | steps + 1 =>
    match cs with
    | '[' :: rest =>
      if depthLimit ≤ depth then .error { rest := cs, cause := some .tooDeep }
      else do
        let (found, rest) ← items steps (depth + 1) false rest
        return (.list found, ← closeList (if found.isEmpty then rest else skipComma rest))
    | '\x7b' :: rest =>
      if depthLimit ≤ depth then .error { rest := cs, cause := some .tooDeep }
      else do
        let (found, behind) ← pairs steps (depth + 1) false rest
        let table ← (inlineTable found).mapError fun cause => { rest, cause := some cause }
        return (table, ← closeTable behind)
    | cs => scalar cs

/-- The items of a list, as many as there are; `later` says that a comma stands before the next one.
-/
def items (steps depth : Nat) (later : Bool) (cs : List Char) :
    Except Fault (List Setting × List Char) :=
  match steps with
  | 0 => .ok ([], cs)
  | steps + 1 =>
    if later && cs.head? ≠ some ',' then .ok ([], cs)
    else
      match item steps depth (if later then skipComma cs else cs) with
      | .error fault => if fault.final then .error fault else .ok ([], cs)
      | .ok (found, rest) => do
        let (more, rest) ← items steps depth true rest
        return (found :: more, rest)

/-- An item of a list, with the space around it. -/
def item (steps depth : Nat) (cs : List Char) : Except Fault (Setting × List Char) :=
  match steps with
  | 0 => .error { rest := cs }
  | steps + 1 => do
    let (found, rest) ← value steps depth (← skipSpace false cs)
    return (found, ← skipSpace false rest)

/-- The pairs of a table between braces, as many as there are; `later` says that a comma stands
before the next one. -/
def pairs (steps depth : Nat) (later : Bool) (cs : List Char) :
    Except Fault (List (List String × Setting) × List Char) :=
  match steps with
  | 0 => .ok ([], cs)
  | steps + 1 =>
    if later && cs.head? ≠ some ',' then .ok ([], cs)
    else
      match key (if later then skipComma cs else cs) with
      | .error fault => if fault.final then .error fault else .ok ([], cs)
      | .ok (path, rest) => do
        let rest ← skipEquals rest
        let (found, rest) ← (value steps depth (skipBlanks rest)).mapError Fault.settled
        let (more, rest) ← pairs steps depth true (skipBlanks rest)
        return ((path, found) :: more, rest)

end

/-! ## Documents -/

/-- A document while it is read: its entries, and the path of the table that takes the next ones. -/
structure State where
  entries : Entries := []
  current : List String := []

def State.openAt (openLast : List String → String → Entries → Except Cause Entries)
    (path : List String) (s : State) : Except Cause State :=
  match path.getLast? with
  | none => .ok s
  | some last => do
    return ⟨← descend (openLast path.dropLast last) [] path.dropLast s.entries, path⟩

def State.assignAt (path : List String) (value : Setting) (s : State) : Except Cause State := do
  return { s with
    entries := ← descend (assign (some s.current) value [] true path) [] s.current s.entries }

/-- The characters behind the mark that closes a header. -/
def closeHeader (isNext : Bool) (cs : List Char) : Except Fault (List Char) :=
  match isNext, cs with
  | false, ']' :: rest => .ok rest
  | true, ']' :: ']' :: rest => .ok rest
  | _, _ => .error { rest := cs, expected := [.mark ".", .mark (if isNext then "]]" else "]")] }

/-- The header of a table or of the next one of several, of which `cs` is the text and `inner` the
text behind its opening mark. -/
def header (isNext : Bool) (s : State) (cs inner : List Char) :
    Except Fault (State × List Char) := do
  let (path, rest) ← key inner
  let rest ← restOfLine (← closeHeader isNext rest)
  let s ← (s.openAt (if isNext then openNext else openTable) path).mapError fun cause =>
    { rest := cs, cause := some cause }
  return (s, rest)

def pair (s : State) (cs : List Char) : Except Fault (State × List Char) := do
  let (path, rest) ← key cs
  let rest ← skipEquals rest
  let (found, rest) ← value (3 * cs.length + 3) 0 (skipBlanks rest)
  let rest ← restOfLine rest
  let s ← (s.assignAt path found).mapError fun cause => { rest := cs, cause := some cause }
  return (s, rest)

/-- The characters behind an empty line or a line with a comment. -/
def emptyLine (cs : List Char) : Except Fault (List Char) :=
  let rest := skipComment cs
  match lineEnd? rest with
  | some rest => .ok rest
  | none => .error { rest }

/-- One line with what continues it. -/
def line (s : State) (cs : List Char) : Except Fault (State × List Char) :=
  let cs := skipBlanks cs
  match cs with
  | '[' :: '[' :: rest => (header true s cs rest).mapError (Fault.within .header)
  | ['['] => .error { rest := cs, subject := some .header }
  | '[' :: rest => (header false s cs rest).mapError (Fault.within .header)
  | c :: _ =>
    if c = '#' || c = '\n' || c = '\r' then do return (s, ← emptyLine cs) else pair s cs
  | [] => .ok (s, [])

/-- The lines of a document, at most `most` of them. -/
def lines (most : Nat) (s : State) (cs : List Char) : Except Fault State :=
  match most, cs with
  | _, [] => .ok s
  | 0, cs => .error { rest := cs }
  | most + 1, cs => do
    let (s, rest) ← line s cs
    lines most s rest

/-- A byte order mark at the start of a text is no part of it. -/
def skipByteOrder : List Char → List Char
  | '\ufeff' :: rest => rest
  | cs => cs

/-- The table that a document stands for. -/
def parse (text : String) : Except Fault Table := do
  let cs := skipByteOrder text.toList
  let s ← lines cs.length {} cs
  return settings s.entries

end PythonToCSharp.Toml
