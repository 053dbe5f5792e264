import PythonToCSharp.Config.Setting

/-!
Layers of settings, read along key paths. A path leads through tables to a value, or it stops: at a
key that a table lacks, or at a value that is no table.

What a merged table holds at a path is what the last layer holds there that does not lack the path.
A layer takes part in this even if it holds a table at the path, or something else on the way: it
hides what earlier layers hold.
-/

namespace PythonToCSharp.Config

/-! ## Key paths -/

namespace Setting

/-- Whether a value is a table. -/
def isTable : Setting → Bool
  | .table _ => true
  | _ => false

/-- What a key path leads to from a value. -/
def at? (value : Setting) : List String → Option Setting
  | [] => some value
  | key :: rest =>
    match value with
    | .table entries => (Table.get? entries key).bind (·.at? rest)
    | _ => none

/-- A key path leads to a value that is no table. -/
def Holds (value : Setting) (path : List String) (found : Setting) : Prop :=
  value.at? path = some found ∧ found.isTable = false

/-- A key path stops at a key that a table lacks: it leads to nothing, and nothing but tables lie on
the way. -/
def Lacks (value : Setting) (path : List String) : Prop :=
  value.at? path = none ∧ ∀ front found, front <+: path → front ≠ path →
    value.at? front = some found → found.isTable

variable {value found : Setting} {entries : Table} {key : String} {path : List String}

theorem holds_nil : value.Holds [] found ↔ value = found ∧ found.isTable = false := by
  simp [Holds, at?]

theorem holds_cons : (Setting.table entries).Holds (key :: path) found ↔
    ∃ value, entries.get? key = some value ∧ value.Holds path found := by
  simp only [Holds, at?, Option.bind_eq_some_iff]
  grind

theorem not_holds_cons (h : value.isTable = false) : ¬ value.Holds (key :: path) found := by
  cases value <;> simp_all [Holds, at?, isTable]

theorem not_lacks_nil : ¬ value.Lacks [] := by
  simp [Lacks, at?]

theorem Holds.not_lacks (h : value.Holds path found) : ¬ value.Lacks path := by
  rintro ⟨hnone, -⟩
  simp [h.1] at hnone

theorem not_lacks_plain (h : value.isTable = false) : ¬ value.Lacks path := by
  intro hlacks
  cases path with
  | nil => exact not_lacks_nil hlacks
  | cons key path =>
    have htable := hlacks.2 [] value List.nil_prefix (by simp) rfl
    simp [h] at htable

theorem at?_cons :
    (Setting.table entries).at? (key :: path) = (entries.get? key).bind (·.at? path) := rfl

theorem lacks_cons : (Setting.table entries).Lacks (key :: path) ↔
    ∀ value, entries.get? key = some value → value.Lacks path := by
  constructor
  · rintro ⟨hnone, hfronts⟩ value hget
    refine ⟨by simpa [at?_cons, hget] using hnone, fun front found hprefix hne hfound => ?_⟩
    exact hfronts (key :: front) found (List.cons_prefix_cons.2 ⟨rfl, hprefix⟩) (by simpa using hne)
      (by simpa [at?_cons, hget] using hfound)
  · intro h
    refine ⟨?_, fun front found hprefix hne hfound => ?_⟩
    · cases hget : entries.get? key with
      | none => simp [at?_cons, hget]
      | some value => simpa [at?_cons, hget] using (h value hget).1
    · cases front with
      | nil =>
        obtain rfl : Setting.table entries = found := by simpa [at?] using hfound
        rfl
      | cons first front =>
        obtain ⟨rfl, hrest⟩ := List.cons_prefix_cons.1 hprefix
        obtain ⟨value, hget, hfound⟩ := Option.bind_eq_some_iff.1 hfound
        exact (h value hget).2 front found hrest (by simpa using hne) hfound

/-- Whether a table lacks a path is found by following it. -/
instance decidableLacks (value : Setting) (path : List String) : Decidable (value.Lacks path) :=
  match path, value with
  | [], _ => .isFalse not_lacks_nil
  | key :: rest, .table entries =>
    match h : Table.get? entries key with
    | none => .isTrue (lacks_cons.2 (by simp [h]))
    | some found =>
      have := decidableLacks found rest
      decidable_of_iff (found.Lacks rest) (by simp [lacks_cons, h])
  | _ :: _, .null => .isFalse (not_lacks_plain rfl)
  | _ :: _, .bool _ => .isFalse (not_lacks_plain rfl)
  | _ :: _, .int _ => .isFalse (not_lacks_plain rfl)
  | _ :: _, .float _ => .isFalse (not_lacks_plain rfl)
  | _ :: _, .str _ => .isFalse (not_lacks_plain rfl)
  | _ :: _, .moment _ => .isFalse (not_lacks_plain rfl)
  | _ :: _, .list _ => .isFalse (not_lacks_plain rfl)

/-- The keys of a table, and of the tables in it, are distinct. -/
inductive DistinctKeys : Setting → Prop where
  | plain {value : Setting} : value.isTable = false → DistinctKeys value
  | table {entries : List (String × Setting)} : (entries.map Prod.fst).Nodup →
      (∀ entry ∈ entries, DistinctKeys entry.2) → DistinctKeys (.table entries)

end Setting

/-! ## Merging one layer -/

namespace Table

/-- A table whose keys, and those of the tables in it, are distinct. -/
def DistinctKeys (table : Table) : Prop :=
  (Setting.table table).DistinctKeys

theorem DistinctKeys.nodup {table : Table} (h : table.DistinctKeys) :
    (table.map Prod.fst).Nodup := by
  cases h with
  | plain h => cases h
  | table hnodup _ => exact hnodup

theorem DistinctKeys.get? {table : Table} (h : table.DistinctKeys) {key : String} {value : Setting}
    (hget : table.get? key = some value) : value.DistinctKeys := by
  obtain ⟨before, behind, rfl, -⟩ := List.lookup_eq_some_iff.1 hget
  cases h with
  | plain h => cases h
  | table _ hentries => exact hentries (key, value) (by simp)

theorem get?_cons (key other : String) (value : Setting) (rest : Table) :
    get? ((other, value) :: rest) key = if key = other then some value else rest.get? key := by
  by_cases h : key = other
  · simp [get?, h]
  · have hb : (key == other) = false := by simpa using h
    simp [get?, List.lookup_cons, hb, h]

theorem get?_eq_none {table : Table} {key : String} (h : key ∉ table.map Prod.fst) :
    table.get? key = none := by
  refine List.lookup_eq_none_iff.2 fun entry hentry => ?_
  have hne : key ≠ entry.1 := fun heq => h (heq ▸ List.mem_map_of_mem hentry)
  simpa using hne

theorem get?_insert (table : Table) (key other : String) (value : Setting) :
    (table.insert key value).get? other = if other = key then some value else table.get? other := by
  induction table with
  | nil => exact get?_cons other key value []
  | cons entry rest ih =>
    obtain ⟨held, old⟩ := entry
    unfold insert
    by_cases hheld : held = key
    · subst hheld
      by_cases h : other = held <;> simp [get?_cons, h]
    · by_cases h : other = held
      · subst h
        simp [get?_cons, hheld]
      · simp [get?_cons, hheld, h, ih]

/-- Under a key that the layer has, its value overrides what was there; under any other key nothing
changes. -/
theorem get?_merge (before : Table) {layer : Table} (h : (layer.map Prod.fst).Nodup)
    (key : String) : (before.merge layer).get? key =
      ((layer.get? key).map (Setting.override (before.get? key))).or (before.get? key) := by
  unfold merge
  induction layer generalizing before with
  | nil => simp [mergeEntries, get?]
  | cons entry rest ih =>
    obtain ⟨first, value⟩ := entry
    obtain ⟨hfirst, hrest⟩ := List.nodup_cons.1 h
    rw [mergeEntries, ih _ hrest, get?_insert, get?_cons]
    by_cases heq : key = first
    · subst heq
      simp [get?_eq_none hfirst]
    · simp [heq]

end Table

namespace Setting

/-- Tables are merged; in every other case the value stays as the layer has it. -/
theorem override_cases (before : Option Setting) (value : Setting) :
    (∃ old entries, before = some (.table old) ∧ value = .table entries ∧
      value.override before = .table (Table.merge old entries)) ∨
    (value.override before = value ∧ ∀ old,
      before = some old → old.isTable = true → value.isTable = false) := by
  cases value with
  | table entries =>
    cases before with
    | none => exact .inr ⟨rfl, by simp⟩
    | some old =>
      cases old with
      | table oldEntries => exact .inl ⟨oldEntries, entries, rfl, rfl, rfl⟩
      | _ => exact .inr ⟨rfl, by simp [isTable]⟩
  | _ => exact .inr ⟨rfl, fun _ _ _ => rfl⟩

end Setting

namespace Table

/-- A merged table holds what the layer holds, and where the layer lacks the path, what was there
before. -/
theorem holds_merge {path : List String} {found : Setting} (before : Table) {layer : Table}
    (h : layer.DistinctKeys) : (Setting.table (before.merge layer)).Holds path found ↔
      (Setting.table layer).Holds path found ∨
        (Setting.table layer).Lacks path ∧ (Setting.table before).Holds path found := by
  induction path generalizing before layer with
  | nil =>
    have hnot : ∀ table, ¬ (Setting.table table).Holds [] found := by
      intro table htable
      obtain ⟨rfl, hplain⟩ := Setting.holds_nil.1 htable
      cases hplain
    simp [hnot]
  | cons key path ih =>
    simp only [Setting.holds_cons, Setting.lacks_cons, get?_merge before h.nodup key]
    cases hget : layer.get? key with
    | none => simp
    | some value =>
      have hvalue : value.DistinctKeys := h.get? hget
      rcases Setting.override_cases (before.get? key) value with
        ⟨old, entries, hold, rfl, hmerged⟩ | ⟨hsame, hplain⟩
      · rw [hold] at hmerged
        simpa [hold, hmerged] using ih old hvalue
      · -- Here the layer's value hides what was there, so nothing can come from before.
        have hhidden :
            ∀ old, before.get? key = some old → value.Lacks path → ¬ old.Holds path found := by
          intro old hold hlacks hholds
          cases htable : old.isTable with
          | true => exact Setting.not_lacks_plain (hplain old hold htable) hlacks
          | false =>
            cases path with
            | nil => exact Setting.not_lacks_nil hlacks
            | cons next path => exact Setting.not_holds_cons htable hholds
        simp only [Option.map_some, Option.some_or, Option.some.injEq, hsame, exists_eq_left',
          forall_eq']
        constructor
        · exact .inl
        · rintro (hholds | ⟨hlacks, old, hold, hholds⟩)
          · exact hholds
          · exact absurd hholds (hhidden old hold hlacks)

/-- A path that both lack is still lacking. -/
theorem lacks_merge {path : List String} {before layer : Table} (h : layer.DistinctKeys)
    (hbefore : (Setting.table before).Lacks path) (hlayer : (Setting.table layer).Lacks path) :
    (Setting.table (before.merge layer)).Lacks path := by
  induction path generalizing before layer with
  | nil => exact absurd hlayer Setting.not_lacks_nil
  | cons key path ih =>
    rw [Setting.lacks_cons] at hbefore hlayer ⊢
    intro value hvalue
    rw [get?_merge before h.nodup key] at hvalue
    cases hget : layer.get? key with
    | none => exact hbefore value (by simpa [hget] using hvalue)
    | some found =>
      obtain rfl : found.override (before.get? key) = value := by simpa [hget] using hvalue
      rcases Setting.override_cases (before.get? key) found with ⟨old, entries, hold, rfl,
        hmerged⟩ | ⟨hsame, -⟩
      · rw [hmerged]
        exact ih (h.get? hget) (hbefore _ hold) (hlayer _ hget)
      · rw [hsame]
        exact hlayer found hget

end Table

/-! ## Merging layers -/

/-- What layers hold together, on top of a table: what the last layer holds that does not lack the
path. -/
theorem holds_foldl_merge {path : List String} {found : Setting} (tables : List Table)
    (h : ∀ table ∈ tables, table.DistinctKeys) (before : Table) :
    (Setting.table (tables.foldl Table.merge before)).Holds path found ↔
      (∃ earlier table later,
        tables = earlier ++ table :: later ∧ (Setting.table table).Holds path found ∧
        ∀ other ∈ later, (Setting.table other).Lacks path) ∨
      (∀ table ∈ tables, (Setting.table table).Lacks path) ∧
        (Setting.table before).Holds path found := by
  induction tables generalizing before with
  | nil => simp
  | cons first rest ih =>
    have hfirst : first.DistinctKeys := h first (by simp)
    rw [List.foldl_cons, ih (fun table hmem => h table (List.mem_cons_of_mem _ hmem)),
      Table.holds_merge before hfirst]
    constructor
    · rintro (⟨earlier, table, later, rfl, hheld, hlater⟩ | ⟨hrest, hheld | ⟨hlacks, hheld⟩⟩)
      · exact .inl ⟨first :: earlier, table, later, rfl, hheld, hlater⟩
      · exact .inl ⟨[], first, rest, rfl, hheld, hrest⟩
      · exact .inr ⟨by simpa using ⟨hlacks, hrest⟩, hheld⟩
    · rintro (⟨earlier, table, later, hsplit, hheld, hlater⟩ | ⟨hall, hheld⟩)
      · cases earlier with
        | nil =>
          obtain ⟨rfl, rfl⟩ := List.cons.inj hsplit
          exact .inr ⟨hlater, .inl hheld⟩
        | cons head earlier =>
          obtain ⟨rfl, rfl⟩ := List.cons.inj hsplit
          exact .inl ⟨earlier, table, later, rfl, hheld, hlater⟩
      · exact .inr ⟨fun table hmem => hall table (List.mem_cons_of_mem _ hmem),
          .inr ⟨hall first (by simp), hheld⟩⟩

theorem lacks_foldl_merge {path : List String} (tables : List Table)
    (h : ∀ table ∈ tables, table.DistinctKeys)
    (hlacks : ∀ table ∈ tables, (Setting.table table).Lacks path) {before : Table}
    (hbefore : (Setting.table before).Lacks path) :
    (Setting.table (tables.foldl Table.merge before)).Lacks path := by
  induction tables generalizing before with
  | nil => exact hbefore
  | cons first rest ih =>
    have hnext := Table.lacks_merge (h first (by simp)) hbefore (hlacks first (by simp))
    exact ih (fun table hmem => h table (List.mem_cons_of_mem _ hmem))
      (fun table hmem => hlacks table (List.mem_cons_of_mem _ hmem)) hnext

end PythonToCSharp.Config
