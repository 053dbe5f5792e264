import PythonToCSharp.Config.Setting
import PythonToCSharp.Number.Shortest
import PythonToCSharp.Options
import PythonToCSharp.Text.Lines
import PythonToCSharp.Text.Quoted

/-!
Options out of configuration values.

A record is read from a table by the names of its fields, or from a list by their order. A field
that is missing keeps its default, a key that is not known is ignored, and a value of another type
is refused.
-/

namespace PythonToCSharp.Config

inductive Problem where
  | type (found : Setting) (expected : String)
  | range (found : Int) (expected : String)
  | length (found : Nat)

/-- A value that does not fit, and the keys that lead to it. -/
structure Mismatch where
  path : List String := []
  problem : Problem

def Setting.describe : Setting → String
  | .null => "null"
  | .bool value => "boolean `" ++ toString value ++ "`"
  | .int value => "integer `" ++ toString value ++ "`"
  | .float value => "floating point `" ++ value.text ++ "`"
  | .str text => "string " ++ Text.quoted text
  | .moment text => "string " ++ Text.quoted text
  | .list _ => "sequence"
  | .table _ => "map"

def Problem.message : Problem → String
  | .type found expected => "invalid type: " ++ found.describe ++ ", expected " ++ expected
  | .range found expected => "invalid value: " ++ (Setting.int found).describe ++
      ", expected " ++ expected
  | .length found => "invalid length " ++ toString found ++ ", expected fewer elements in array"

def Mismatch.message (mismatch : Mismatch) : String :=
  mismatch.problem.message ++ "\n" ++
    if mismatch.path.isEmpty then "" else "in `" ++ Text.join "." mismatch.path ++ "`\n"

/-- A value, or why there is none. -/
abbrev Decoded := Except Mismatch

def refuse {α : Type} (problem : Problem) : Decoded α :=
  .error { problem }

/-- The least number above the range of widths. -/
def widthLimit : Int := Int.ofNat (Nat.pow 2 64)

def decodeWidth : Setting → Decoded Nat
  | .int value =>
    if 0 ≤ value ∧ value < widthLimit then .ok value.toNat else refuse (.range value "usize")
  | found => refuse (.type found "usize")

def decodeName : Setting → Decoded String
  | .str text => .ok text
  | .moment text => .ok text
  | found => refuse (.type found "a string")

/-- A field of a table; a missing one has its default. -/
def field {α : Type} (decode : Setting → Decoded α) (table : Table) (key : String) (default : α) :
    Decoded α :=
  match table.get? key with
  | none => .ok default
  | some value => (decode value).mapError fun mismatch =>
      { mismatch with path := key :: mismatch.path }

/-- A field of a list; a missing one has its default. -/
def element {α : Type} (decode : Setting → Decoded α) (items : List Setting) (i : Nat)
    (default : α) : Decoded α :=
  match items[i]? with
  | none => .ok default
  | some value => decode value

/-- Refuses a list with more elements than there are fields. -/
def checkLength (items : List Setting) (most : Nat) : Decoded Unit :=
  if items.length ≤ most then .ok () else refuse (.length items.length)

/-- The names of the runtime library out of a table, whose fields are looked at in the order of
their keys. -/
def libraryOfTable (table : Table) (default : LibraryNames) : Decoded LibraryNames := do
  let dictType ← field decodeName table "dict_type" default.dictType
  let floordivFn ← field decodeName table "floordiv_fn" default.floordivFn
  let listType ← field decodeName table "list_type" default.listType
  let matmulFn ← field decodeName table "matmul_fn" default.matmulFn
  let powFn ← field decodeName table "pow_fn" default.powFn
  let setType ← field decodeName table "set_type" default.setType
  let tupleType ← field decodeName table "tuple_type" default.tupleType
  let valueType ← field decodeName table "value_type" default.valueType
  return { valueType, listType, dictType, setType, tupleType, powFn, floordivFn, matmulFn }

def libraryOfList (items : List Setting) (default : LibraryNames) : Decoded LibraryNames := do
  let valueType ← element decodeName items 0 default.valueType
  let listType ← element decodeName items 1 default.listType
  let dictType ← element decodeName items 2 default.dictType
  let setType ← element decodeName items 3 default.setType
  let tupleType ← element decodeName items 4 default.tupleType
  let powFn ← element decodeName items 5 default.powFn
  let floordivFn ← element decodeName items 6 default.floordivFn
  let matmulFn ← element decodeName items 7 default.matmulFn
  checkLength items 8
  return { valueType, listType, dictType, setType, tupleType, powFn, floordivFn, matmulFn }

def decodeLibrary : Setting → Decoded LibraryNames
  | .table entries => libraryOfTable entries {}
  | .list items => libraryOfList items {}
  | found => refuse (.type found "struct RuntimeNames")

def optionsOfTable (table : Table) : Decoded Options := do
  let indentWidth ← field decodeWidth table "indent_width" ({} : Options).indentWidth
  let library ← field decodeLibrary table "runtime" {}
  return { indentWidth, library }

def decodeOptions : Setting → Decoded Options
  | .table entries => optionsOfTable entries
  | .list items => do
    let indentWidth ← element decodeWidth items 0 ({} : Options).indentWidth
    let library ← element decodeLibrary items 1 {}
    checkLength items 2
    return { indentWidth, library }
  | found => refuse (.type found "struct TranslateOptions")

end PythonToCSharp.Config
