import PythonToCSharp.Config.Setting
import PythonToCSharp.Toml.Text

/-!
Tables while a document is read. A table remembers how it came about, because that decides what may
still be added: a table with a header of its own is complete, one that only stands in the path of a
header may get a header later, and one made by dotted keys is open to more dotted keys.
-/

namespace PythonToCSharp.Toml

open Config (Setting)

/-- How a table came about. -/
inductive Origin where
  /-- By a header of its own. -/
  | header
  /-- In the path of a header. -/
  | path
  /-- By a dotted key. -/
  | dotted
  deriving DecidableEq, Repr

/-- What stands under a key. -/
inductive Node where
  | value (setting : Setting)
  | table (origin : Origin) (entries : List (String × Node))
  /-- Tables with the same header, the last one being the current one. -/
  | tables (items : List (List (String × Node)))

abbrev Entries := List (String × Node)

/-- Puts a node in place of the one under a key. -/
def replace (key : String) (node : Node) (entries : Entries) : Entries :=
  entries.map fun entry => if entry.1 = key then (key, node) else entry

def kindOf : Setting → String
  | .null => "null"
  | .bool _ => "boolean"
  | .int _ => "integer"
  | .float _ => "float"
  | .str _ => "string"
  | .moment _ => "datetime"
  | .list _ => "array"
  | .table _ => "inline table"

/-- Changes the last of some tables. -/
def inLast (f : Entries → Except Cause Entries) (items : List Entries) :
    Except Cause (List Entries) :=
  match items.getLast? with
  | none => .ok items
  | some last => do return items.dropLast ++ [← f last]

/-- Why a dotted key cannot go through a value. A table between braces is complete; within another
one it counts as a key that is there already. -/
def blocked (table : Option (List String)) (seen : List String) (key : String) : Setting → Cause
  | .table entries =>
    if table.isNone then .duplicate key none else
      .extended (seen ++ [key]) (kindOf (.table entries))
  | value => .extended (seen ++ [key]) (kindOf value)

/-- Puts a value under a dotted key, of which `seen` has been followed. The key belongs to the table
at a path, or to a table between braces. `isOpen` says whether the table that was reached takes a
key itself. -/
def assign (table : Option (List String)) (value : Setting) (seen : List String) (isOpen : Bool) :
    List String → Entries → Except Cause Entries
  | [], entries => .ok entries
  | [key], entries =>
    if !isOpen then .error (.duplicate key none)
    else if (entries.lookup key).isSome then .error (.duplicate key table)
    else .ok (entries ++ [(key, .value value)])
  | key :: rest, entries =>
    let next := seen ++ [key]
    match entries.lookup key with
    | none => do return entries ++ [(key, .table .dotted (← assign table value next true rest []))]
    | some (.value found) => .error (blocked table seen key found)
    | some (.table .header _) => .error (.duplicate key none)
    | some (.table .path inner) => do
      return replace key (.table .path (← assign table value next false rest inner)) entries
    | some (.table .dotted inner) => do
      return replace key (.table .dotted (← assign table value next true rest inner)) entries
    | some (.tables items) => do
      return replace key (.tables (← inLast (assign table value next false rest) items)) entries

/-- Changes the table at a path, of which `seen` has been followed. The tables on the way are made
if they are missing. -/
def descend (f : Entries → Except Cause Entries) (seen : List String) :
    List String → Entries → Except Cause Entries
  | [], entries => f entries
  | key :: rest, entries =>
    let next := seen ++ [key]
    match entries.lookup key with
    | none => do return entries ++ [(key, .table .path (← descend f next rest []))]
    | some (.value found) => .error (.extended next (kindOf found))
    | some (.table origin inner) => do
      return replace key (.table origin (← descend f next rest inner)) entries
    | some (.tables items) => do
      return replace key (.tables (← inLast (descend f next rest) items)) entries

/-- Opens a table under a key of the table at a path: a new one, or one that has only stood in a
path so far. -/
def openTable (path : List String) (key : String) (entries : Entries) : Except Cause Entries :=
  match entries.lookup key with
  | none => .ok (entries ++ [(key, .table .header [])])
  | some (.table .path inner) => .ok (replace key (.table .header inner) entries)
  | _ => .error (.duplicate (keyText key) (some path))

/-- Opens one more table under a key that stands for several. -/
def openNext (path : List String) (key : String) (entries : Entries) : Except Cause Entries :=
  match entries.lookup key with
  | none => .ok (entries ++ [(key, .tables [[]])])
  | some (.tables items) => .ok (replace key (.tables (items ++ [[]])) entries)
  | _ => .error (.duplicate (keyText key) (some path))

mutual

def Node.setting : Node → Setting
  | .value setting => setting
  | .table _ entries => .table (settings entries)
  | .tables items => .list (settingsAll items)

def settings : List (String × Node) → List (String × Setting)
  | [] => []
  | (key, node) :: rest => (key, node.setting) :: settings rest

def settingsAll : List (List (String × Node)) → List Setting
  | [] => []
  | entries :: rest => .table (settings entries) :: settingsAll rest

end

end PythonToCSharp.Toml
