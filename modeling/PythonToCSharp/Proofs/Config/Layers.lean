import PythonToCSharp.Config.Load
import PythonToCSharp.Proofs.Config.Merge
import PythonToCSharp.Proofs.Toml.Keys

/-!
The options that layers give together. Each option has a key path of its own. Where every layer
either lacks that path or has a value of the right type there, the option has the value of the last
layer that does not lack it, and its default if all of them do; other keys have no part in this.
-/

namespace PythonToCSharp.Config

/-! ## The options and their keys -/

/-- The names among the options. -/
inductive NameKey where
  | valueType
  | listType
  | dictType
  | setType
  | tupleType
  | powFn
  | floordivFn
  | matmulFn
  deriving DecidableEq, Repr

namespace NameKey

/-- The key of a name in the table of the runtime library. -/
def text : NameKey → String
  | .valueType => "value_type"
  | .listType => "list_type"
  | .dictType => "dict_type"
  | .setType => "set_type"
  | .tupleType => "tuple_type"
  | .powFn => "pow_fn"
  | .floordivFn => "floordiv_fn"
  | .matmulFn => "matmul_fn"

/-- The key path of a name. -/
def path (key : NameKey) : List String :=
  ["runtime", key.text]

/-- The name that a runtime library has for a key. -/
def of (names : LibraryNames) : NameKey → String
  | .valueType => names.valueType
  | .listType => names.listType
  | .dictType => names.dictType
  | .setType => names.setType
  | .tupleType => names.tupleType
  | .powFn => names.powFn
  | .floordivFn => names.floordivFn
  | .matmulFn => names.matmulFn

/-- The runtime library with a given name for each key. -/
def library (name : NameKey → String) : LibraryNames where
  valueType := name .valueType
  listType := name .listType
  dictType := name .dictType
  setType := name .setType
  tupleType := name .tupleType
  powFn := name .powFn
  floordivFn := name .floordivFn
  matmulFn := name .matmulFn

/-- All keys. -/
def all : List NameKey :=
  [.valueType, .listType, .dictType, .setType, .tupleType, .powFn, .floordivFn, .matmulFn]

theorem mem_all (key : NameKey) : key ∈ all := by
  cases key <;> decide

theorem of_library (name : NameKey → String) (key : NameKey) :
    key.of (library name) = name key := by
  cases key <;> rfl

theorem library_of (names : LibraryNames) : library (of names) = names := rfl

theorem ext {names others : LibraryNames} (h : ∀ key, of names key = of others key) :
    names = others := by
  rw [← library_of names, ← library_of others, funext h]

end NameKey

/-- The key path of the width. -/
def widthPath : List String :=
  ["indent_width"]

section Choice

variable {α : Type} (decode : Setting → Decoded α)

/-- A table lacks a path, or has a value there that can be decoded. -/
def Fits (path : List String) (table : Table) : Prop :=
  (Setting.table table).Lacks path ∨
    ∃ value chosen, (Setting.table table).Holds path value ∧ decode value = .ok chosen

theorem fits_iff {decode : Setting → Decoded α} {path : List String} {table : Table} :
    Fits decode path table ↔ (Setting.table table).Lacks path ∨
      ((Setting.table table).at? path).any
        (fun value => !value.isTable && (decode value).toBool) = true := by
  refine or_congr_right ⟨?_, fun h => ?_⟩
  · rintro ⟨value, chosen, ⟨hat, hplain⟩, hdecode⟩
    simp [hat, hplain, hdecode, Except.toBool]
  · obtain ⟨value, hat, hvalue⟩ := (Option.any_eq_true _ _).1 h
    cases hdecode : decode value with
    | error mismatch => simp [hdecode, Except.toBool] at hvalue
    | ok chosen => exact ⟨value, chosen,
        ⟨hat, by simpa [hdecode, Except.toBool] using hvalue⟩, hdecode⟩

instance (path : List String) (table : Table) : Decidable (Fits decode path table) :=
  decidable_of_iff _ fits_iff.symm

/-- What layers choose for a path: the value of the last layer that has one there, or the default.
-/
inductive Chosen (path : List String) (default : α) (tables : List Table) : α → Prop where
  | last (earlier later : List Table) {table : Table} {value : Setting} {chosen : α} :
      tables = earlier ++ table :: later → (Setting.table table).Holds path value →
        decode value = .ok chosen →
      (∀ other ∈ later, (Setting.table other).Lacks path) → Chosen path default tables chosen
  | default : (∀ table ∈ tables, (Setting.table table).Lacks path) →
      Chosen path default tables default

end Choice

/-- The options of a layer are well typed: its width is a number in range, and its names are texts.
-/
structure Table.WellTyped (table : Table) : Prop where
  width : Fits decodeWidth widthPath table
  names : ∀ key : NameKey, Fits decodeName key.path table

theorem wellTyped_iff {table : Table} : table.WellTyped ↔
    Fits decodeWidth widthPath table ∧ ∀ key ∈ NameKey.all, Fits decodeName key.path table :=
  ⟨fun h => ⟨h.width, fun key _ => h.names key⟩, fun h => ⟨h.1, fun key => h.2 key key.mem_all⟩⟩

instance (table : Table) : Decidable table.WellTyped :=
  decidable_of_iff _ wellTyped_iff.symm

/-! ## What layers choose -/

/-- What layers hold together: what the last layer holds that does not lack the path. -/
theorem holds_mergeAll {tables : List Table} (h : ∀ table ∈ tables, table.DistinctKeys)
    (path : List String) (found : Setting) :
    (Setting.table (mergeAll tables)).Holds path found ↔
      ∃ earlier table later, tables = earlier ++ table :: later ∧ (Setting.table table).Holds path
        found ∧ ∀ other ∈ later, (Setting.table other).Lacks path := by
  have hnothing : ¬ (Setting.table []).Holds path found := by
    cases path with
    | nil =>
      intro hholds
      obtain ⟨rfl, hplain⟩ := Setting.holds_nil.1 hholds
      cases hplain
    | cons key rest => simp [Setting.holds_cons, Table.get?]
  rw [mergeAll, holds_foldl_merge tables h]
  simp [hnothing]

theorem lacks_mergeAll {tables : List Table} (h : ∀ table ∈ tables, table.DistinctKeys)
    {key : String}
    {rest : List String} (hlacks : ∀ table ∈ tables, (Setting.table table).Lacks (key :: rest)) :
    (Setting.table (mergeAll tables)).Lacks (key :: rest) :=
  lacks_foldl_merge tables h hlacks (by simp [Setting.lacks_cons, Table.get?])

section Choice

variable {α : Type} {decode : Setting → Decoded α} {path : List String} {default chosen : α}
  {tables : List Table}

theorem exists_chosen (h : ∀ table ∈ tables, Fits decode path table) (default : α) :
    ∃ chosen, Chosen decode path default tables chosen := by
  induction tables with
  | nil => exact ⟨default, .default (by simp)⟩
  | cons first rest ih =>
    obtain ⟨chosen, hrest⟩ := ih fun table hmem => h table (List.mem_cons_of_mem _ hmem)
    cases hrest with
    | last earlier later hsplit hholds hdecode hlater =>
      exact ⟨chosen, .last (first :: earlier) later (by rw [hsplit]; rfl) hholds hdecode hlater⟩
    | default hlacks =>
      rcases h first (by simp) with hfirst | ⟨value, chosen, hholds, hdecode⟩
      · exact ⟨default, .default (by simpa using ⟨hfirst, hlacks⟩)⟩
      · exact ⟨chosen, .last [] rest rfl hholds hdecode hlacks⟩

/-- A layer that has a value at a path does not stand behind one after which all layers lack the
path. -/
theorem eq_of_later_lacks {table other : Table} {between later later' : List Table}
    {value : Setting}
    (h : table :: later = between ++ other :: later')
    (hlater : ∀ layer ∈ later, (Setting.table layer).Lacks path)
    (hother : (Setting.table other).Holds path value) : table = other := by
  cases between with
  | nil => exact (List.cons.inj h).1
  | cons first between =>
    have hmem : other ∈ later := by simp [(List.cons.inj h).2]
    exact absurd (hlater other hmem) hother.not_lacks

/-- Layers choose one value. -/
theorem Chosen.unique {other : α} (h : Chosen decode path default tables chosen)
    (h' : Chosen decode path default tables other) : chosen = other := by
  cases h with
  | default hlacks =>
    cases h' with
    | default => rfl
    | @last _ _ table _ _ hsplit hholds =>
      exact absurd (hlacks table (by simp [hsplit])) hholds.not_lacks
  | @last earlier later table value _ hsplit hholds hdecode hlater =>
    cases h' with
    | default hlacks => exact absurd (hlacks table (by simp [hsplit])) hholds.not_lacks
    | @last earlier' later' table' value' _ hsplit' hholds' hdecode' hlater' =>
      obtain rfl : table = table' := by
        rcases List.append_eq_append_iff.1 (hsplit.symm.trans hsplit') with ⟨between, -,
          hrest⟩ | ⟨between, -, hrest⟩
        · exact eq_of_later_lacks hrest hlater hholds'
        · exact (eq_of_later_lacks hrest hlater' hholds).symm
      obtain rfl : value = value' := Option.some.inj (hholds.1.symm.trans hholds'.1)
      exact Except.ok.inj (hdecode.symm.trans hdecode')

/-- The merged table has the chosen value, or it lacks the path and the default is chosen. -/
theorem Chosen.merged {key : String} {rest : List String}
    (h : Chosen decode (key :: rest) default tables chosen)
    (hkeys : ∀ table ∈ tables, table.DistinctKeys) :
    (∃ value, (Setting.table (mergeAll tables)).Holds (key :: rest) value ∧ decode value =
      .ok chosen) ∨ (Setting.table (mergeAll tables)).Lacks (key :: rest) ∧ chosen = default := by
  cases h with
  | last earlier later hsplit hholds hdecode hlater =>
    exact .inl ⟨_, (holds_mergeAll hkeys _ _).2 ⟨earlier, _, later, hsplit, hholds, hlater⟩,
      hdecode⟩
  | default hlacks => exact .inr ⟨lacks_mergeAll hkeys hlacks, rfl⟩

/-- A field of a table that has the chosen value, or lacks the key while the default is chosen. -/
theorem field_eq {table : Table} {key : String}
    (h : (∃ value, (Setting.table table).Holds [key] value ∧ decode value = .ok chosen) ∨
      (Setting.table table).Lacks [key] ∧ chosen = default) :
    field decode table key default = .ok chosen := by
  unfold field
  rcases h with ⟨value, hholds, hdecode⟩ | ⟨hlacks, rfl⟩
  · obtain ⟨found, hget, hfound⟩ := Setting.holds_cons.1 hholds
    obtain ⟨rfl, -⟩ := Setting.holds_nil.1 hfound
    rw [hget]
    simp only [hdecode]
    rfl
  · have hget : table.get? key = none := by
      cases hget : table.get? key with
      | none => rfl
      | some found => exact absurd (Setting.lacks_cons.1 hlacks found hget) Setting.not_lacks_nil
    rw [hget]

end Choice

/-! ## Options of layers -/

theorem libraryOfTable_eq {table : Table} {default names : LibraryNames}
    (h : ∀ key : NameKey, field decodeName table key.text (key.of default) = .ok (key.of names)) :
    libraryOfTable table default = .ok names := by
  have hdict : field decodeName table "dict_type" default.dictType = .ok names.dictType :=
    h .dictType
  have hfloordiv : field decodeName table "floordiv_fn" default.floordivFn = .ok names.floordivFn :=
    h .floordivFn
  have hlist : field decodeName table "list_type" default.listType = .ok names.listType :=
    h .listType
  have hmatmul : field decodeName table "matmul_fn" default.matmulFn = .ok names.matmulFn :=
    h .matmulFn
  have hpow : field decodeName table "pow_fn" default.powFn = .ok names.powFn := h .powFn
  have hset : field decodeName table "set_type" default.setType = .ok names.setType := h .setType
  have htuple : field decodeName table "tuple_type" default.tupleType = .ok names.tupleType :=
    h .tupleType
  have hvalue : field decodeName table "value_type" default.valueType = .ok names.valueType :=
    h .valueType
  simp only [libraryOfTable, hdict, hfloordiv, hlist, hmatmul, hpow, hset, htuple, hvalue,
    Bind.bind, Except.bind]
  rfl

/-- The names of the runtime library, by the key paths that lead to them. -/
theorem libraryField_eq {table : Table} {names : LibraryNames}
    (h : ∀ key : NameKey,
      (∃ value, (Setting.table table).Holds key.path value ∧
        decodeName value = .ok (key.of names)) ∨
      (Setting.table table).Lacks key.path ∧ key.of names = key.of {}) :
    field decodeLibrary table "runtime" {} = .ok names := by
  simp only [NameKey.path, Setting.holds_cons, Setting.lacks_cons] at h
  unfold field
  cases hget : table.get? "runtime" with
  | none =>
    have hdefault : names = {} := NameKey.ext fun key => by simpa [hget] using h key
    rw [hdefault]
  | some found =>
    simp only [hget, Option.some.injEq, exists_eq_left', forall_eq'] at h
    cases htable : found.isTable with
    | false =>
      rcases h .valueType with ⟨value, hholds, -⟩ | ⟨hlacks, -⟩
      · exact absurd hholds (Setting.not_holds_cons htable)
      · exact absurd hlacks (Setting.not_lacks_plain htable)
    | true =>
      cases found with
      | table entries =>
        have hnames : libraryOfTable entries {} = .ok names :=
          libraryOfTable_eq fun key => field_eq (h key)
        simp only [decodeLibrary, hnames]
        rfl
      | _ => cases htable

/-- Well-typed layers give options, each of which they choose by its key path. -/
theorem optionsOfLayers_chosen {tables : List Table} (hkeys : ∀ table ∈ tables, table.DistinctKeys)
    (h : ∀ table ∈ tables, table.WellTyped) : ∃ options, optionsOfLayers tables = .ok options ∧
      Chosen decodeWidth widthPath ({} : Options).indentWidth tables options.indentWidth ∧
      ∀ key : NameKey, Chosen decodeName key.path (key.of {}) tables (key.of options.library) := by
  obtain ⟨width, hwidth⟩ :=
    exists_chosen (fun table hmem => (h table hmem).width) ({} : Options).indentWidth
  have hnames := fun key : NameKey =>
    exists_chosen (fun table hmem => (h table hmem).names key) (key.of {})
  obtain ⟨name, hname⟩ := Classical.axiomOfChoice hnames
  have hlibrary : ∀ key : NameKey,
      Chosen decodeName key.path (key.of {}) tables (key.of (NameKey.library name)) :=
    fun key => NameKey.of_library name key ▸ hname key
  refine ⟨⟨width, NameKey.library name⟩, ?_, hwidth, hlibrary⟩
  have hfirst := field_eq (hwidth.merged hkeys)
  have hsecond := libraryField_eq fun key => (hlibrary key).merged hkeys
  simp only [optionsOfLayers, optionsOfTable, hfirst, hsecond, Bind.bind, Except.bind]
  rfl

/-- Later layers override earlier ones key by key. Of layers with distinct keys, the merged table
leads to a value that is no table exactly where some layer has that value and each later one stops
at a key that a table lacks. So options out of well-typed layers, whatever else the layers hold,
have the value of the last layer that sets them, and their default when none does. The keys of every
table that a document gives are distinct. -/
theorem layers_override_key_by_key :
    (∀ tables : List Table, (∀ table ∈ tables, table.DistinctKeys) → ∀ path found,
      (Setting.table (mergeAll tables)).Holds path found ↔
        ∃ earlier table later, tables = earlier ++ table :: later ∧ (Setting.table table).Holds path
          found ∧ ∀ other ∈ later, (Setting.table other).Lacks path) ∧
    (∀ (m : Type → Type) [Monad m] [LawfulMonad m] (files : Files.Access m) (layers : List Layer)
      (tables : List Table), readLayers files layers = pure (.ok tables) →
      (∀ table ∈ tables, table.DistinctKeys) → (∀ table ∈ tables, table.WellTyped) →
      ∃ options, load files layers = pure (.ok options) ∧
        (∀ width, Chosen decodeWidth widthPath ({} : Options).indentWidth tables width ↔
          options.indentWidth = width) ∧
        ∀ (key : NameKey) (name : String),
          Chosen decodeName key.path (key.of {}) tables name ↔ key.of options.library = name) ∧
    ∀ text table, Toml.parse text = .ok table → table.DistinctKeys := by
  refine ⟨fun tables hkeys => holds_mergeAll hkeys,
    fun m _ _ files layers tables hread hkeys htyped => ?_, Toml.parse_distinctKeys⟩
  obtain ⟨options, hoptions, hwidth, hnames⟩ := optionsOfLayers_chosen hkeys htyped
  refine ⟨options, ?_, fun width => ⟨hwidth.unique, ?_⟩, fun key name => ⟨(hnames key).unique, ?_⟩⟩
  · simp [load, hread, hoptions]
  · rintro rfl
    exact hwidth
  · rintro rfl
    exact hnames key

/-- The table of a text, if it is a document. -/
def tableOf (text : String) : Table :=
  (Toml.parse text).toOption.getD []

theorem parse_eq_tableOf {text : String} (h : (Toml.parse text).toBool) :
    Toml.parse text = .ok (tableOf text) := by
  rw [tableOf]
  cases hparse : Toml.parse text with
  | error fault => simp [hparse, Except.toBool] at h
  | ok table => rfl

/-- The file of a user, who sets the width and two names. -/
def userText : String :=
  "indent_width = 2\n[runtime]\nvalue_type = \"dynamic\"\npow_fn = \"Pow\"\n"

/-- The file of a project, which sets one of the names and has an unknown key. -/
def projectText : String :=
  "[runtime]\nvalue_type = \"object\"\ncolour = true\n"

/-- Access to the two files. -/
def twoFiles : Files.Access Id where
  has _ := pure true
  read path := pure (.ok (if path = "user" then userText else projectText))
  write _ _ := pure (.ok ())

theorem userText_wellTyped : (tableOf userText).WellTyped := by decide +kernel

theorem projectText_wellTyped : (tableOf projectText).WellTyped := by decide +kernel

/-- The project overrides one name. The other one that the user has set stays, as the width does,
and everything else has its default. -/
theorem twoFiles_override : ∃ options,
    load twoFiles [{ path := "user" }, { path := "project" }] = pure (.ok options) ∧
      options = { indentWidth := 2, library := { valueType := "object", powFn := "Pow" } } := by
  obtain ⟨-, hload, hkeys⟩ := layers_override_key_by_key
  have huser : Toml.parse userText = .ok (tableOf userText) := parse_eq_tableOf (by decide +kernel)
  have hproject : Toml.parse projectText = .ok (tableOf projectText) :=
    parse_eq_tableOf (by decide +kernel)
  have hread : readLayers twoFiles [{ path := "user" }, { path := "project" }] =
      pure (.ok [tableOf userText, tableOf projectText]) := by
    simp [readLayers, readLayer, twoFiles, huser, hproject]
  obtain ⟨options, hoptions, -⟩ := hload Id twoFiles _ _ hread
    (by simpa using ⟨hkeys _ _ huser, hkeys _ _ hproject⟩)
    (by simpa using ⟨userText_wellTyped, projectText_wellTyped⟩)
  refine ⟨options, hoptions, ?_⟩
  have hvalue : (load twoFiles [{ path := "user" }, { path := "project" }]).toOption =
      some { indentWidth := 2, library := { valueType := "object", powFn := "Pow" } } := by
    decide +kernel
  rw [hoptions] at hvalue
  exact Option.some.inj hvalue

end PythonToCSharp.Config
