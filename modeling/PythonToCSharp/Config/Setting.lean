import PythonToCSharp.Number.Double

/-!
Configuration values, and how one layer of configuration overrides another.

Tables keep one entry for each key. A layer is merged into the layers before it key by key: two
tables under the same key are merged in turn, and any other value replaces what was there.
-/

namespace PythonToCSharp.Config

inductive Setting where
  | null
  | bool (value : Bool)
  | int (value : Int)
  | float (value : Number.Double)
  | str (text : String)
  /-- A date or a time, which stands for its text. -/
  | moment (text : String)
  | list (items : List Setting)
  | table (entries : List (String × Setting))

instance : Inhabited Setting := ⟨.null⟩

abbrev Table := List (String × Setting)

namespace Table

def get? (table : Table) (key : String) : Option Setting :=
  table.lookup key

/-- Puts a value under a key, in place of the one that is there. -/
def insert (key : String) (value : Setting) : Table → Table
  | [] => [(key, value)]
  | entry :: rest => if entry.1 = key then (key, value) :: rest else entry :: insert key value rest

end Table

mutual

/-- What stands under a key after a layer with `value` there: tables are merged, anything else
replaces what was there before. -/
def Setting.override (before : Option Setting) : Setting → Setting
  | .table entries =>
    match before with
    | some (.table old) => .table (mergeEntries old entries)
    | _ => .table entries
  | value => value

/-- A table with the entries of another merged into it, from the first. -/
def mergeEntries (before : Table) : List (String × Setting) → Table
  | [] => before
  | (key, value) :: rest =>
    mergeEntries (before.insert key (value.override (before.get? key))) rest

end

def Table.merge (before layer : Table) : Table :=
  mergeEntries before layer

end PythonToCSharp.Config
