import PythonToCSharp.Proofs.Config.Merge
import PythonToCSharp.Toml.Document

/-!
The keys of a document are distinct: whatever its headers, dotted keys and tables between braces
are, no table of the result has two values under one key.

A key is added to a table only where a look-up has found nothing, and any other step changes what
stands under a key that is there. What a reader gives is stated by `Ensures`.
-/

namespace PythonToCSharp.Toml

open Config (Setting Table)

/-! ## What a reader gives -/

/-- Whatever is given has a property. -/
def Ensures {ε α : Type} (property : α → Prop) (result : Except ε α) : Prop :=
  ∀ found, result = .ok found → property found

namespace Ensures

variable {ε α β : Type} {property : α → Prop} {further : β → Prop}

theorem ok {found : α} (h : property found) : Ensures property (.ok found : Except ε α) := by
  rintro _ ⟨⟩
  exact h

theorem pure {found : α} (h : property found) : Ensures property (Pure.pure found : Except ε α) :=
  ok h

theorem error {fault : ε} : Ensures property (.error fault : Except ε α) := by
  rintro _ ⟨⟩

theorem bind {result : Except ε α} {next : α → Except ε β} (h : Ensures property result)
    (hnext : ∀ found, property found → Ensures further (next found)) :
    Ensures further (result >>= next) := by
  cases result with
  | error fault => exact error
  | ok found => exact hnext found (h found rfl)

/-- Of what comes first nothing need be known. -/
theorem behind {result : Except ε α} {next : α → Except ε β}
    (hnext : ∀ found, Ensures further (next found)) : Ensures further (result >>= next) := by
  cases result with
  | error fault => exact error
  | ok found => exact hnext found

theorem mapError {ε' : Type} {result : Except ε α} (h : Ensures property result) (f : ε → ε') :
    Ensures property (result.mapError f) := by
  cases result with
  | error fault => exact error
  | ok found => exact ok (h found rfl)

theorem ite {c : Prop} [Decidable c] {first second : Except ε α} (h : c → Ensures property first)
    (h' : ¬ c → Ensures property second) : Ensures property (if c then first else second) := by
  by_cases hc : c
  · simpa [hc] using h hc
  · simpa [hc] using h' hc

theorem orElse {result : Except Fault α} {other : Unit → Except Fault α}
    (h : Ensures property result)
    (hother : Ensures property (other ())) : Ensures property (Toml.orElse result other) := by
  cases result with
  | error fault => exact ite (fun _ => error) fun _ => hother
  | ok found => exact ok (h found rfl)

theorem foldlM {δ : Type} {next : α → δ → Except ε α} {items : List δ}
    (h : ∀ item ∈ items, ∀ found, property found → Ensures property (next found item)) {start : α}
    (hstart : property start) : Ensures property (items.foldlM next start) := by
  induction items generalizing start with
  | nil => exact pure hstart
  | cons item rest ih =>
    rw [List.foldlM_cons]
    refine bind (h item (by simp) start hstart) fun found hfound => ?_
    exact ih (fun other hmem => h other (List.mem_cons_of_mem _ hmem)) hfound

end Ensures

/-! ## Tables while a document is read -/

/-- The keys of every table in a node are distinct. Several tables under one header end up in a
list, where keys do not matter. -/
inductive Node.DistinctKeys : Node → Prop where
  | value {setting : Setting} : setting.DistinctKeys → DistinctKeys (.value setting)
  | table {origin : Origin} {entries : List (String × Node)} : (entries.map Prod.fst).Nodup →
      (∀ entry ∈ entries, DistinctKeys entry.2) → DistinctKeys (.table origin entries)
  | tables {items : List (List (String × Node))} : DistinctKeys (.tables items)

/-- The keys of entries and of every table below them are distinct. -/
structure Entries.DistinctKeys (entries : Entries) : Prop where
  nodup : (entries.map Prod.fst).Nodup
  nodes : ∀ entry ∈ entries, entry.2.DistinctKeys

namespace Entries.DistinctKeys

variable {entries : Entries} {key : String} {node : Node}

theorem nil : Entries.DistinctKeys [] := by
  constructor <;> simp

theorem lookup (h : Entries.DistinctKeys entries) (hfound : entries.lookup key = some node) :
    node.DistinctKeys := by
  obtain ⟨before, behind, rfl, -⟩ := List.lookup_eq_some_iff.1 hfound
  exact h.nodes (key, node) (by simp)

theorem of_table {origin : Origin} (h : (Node.table origin entries).DistinctKeys) :
    Entries.DistinctKeys entries := by
  cases h with
  | table hnodup hnodes => exact ⟨hnodup, hnodes⟩

theorem table (h : Entries.DistinctKeys entries) (origin : Origin) :
    (Node.table origin entries).DistinctKeys :=
  .table h.nodup h.nodes

/-- A key that was not there. -/
theorem push (h : Entries.DistinctKeys entries) (hnew : entries.lookup key = none)
    (hnode : node.DistinctKeys) : Entries.DistinctKeys (entries ++ [(key, node)]) := by
  have hkey : ∀ entry ∈ entries, key ≠ entry.1 := by simpa using List.lookup_eq_none_iff.1 hnew
  constructor
  · rw [List.map_append, List.nodup_append]
    refine ⟨h.nodup, by simp, ?_⟩
    intro other hmem last hlast
    obtain ⟨entry, hentry, rfl⟩ := List.mem_map.1 hmem
    obtain rfl : last = key := by simpa using hlast
    exact (hkey entry hentry).symm
  · intro entry hentry
    rcases List.mem_append.1 hentry with hold | hlast
    · exact h.nodes entry hold
    · obtain rfl : entry = (key, node) := by simpa using hlast
      exact hnode

/-- Another node under a key. -/
theorem replace (h : Entries.DistinctKeys entries) (hnode : node.DistinctKeys) :
    Entries.DistinctKeys (replace key node entries) := by
  constructor
  · have hkeys : (Toml.replace key node entries).map Prod.fst = entries.map Prod.fst := by
      rw [Toml.replace, List.map_map]
      refine List.map_congr_left fun entry _ => ?_
      by_cases heq : entry.1 = key <;> simp [heq]
    rw [hkeys]
    exact h.nodup
  · intro entry hentry
    obtain ⟨old, hold, rfl⟩ := List.mem_map.1 hentry
    by_cases heq : old.1 = key
    · simpa [heq] using hnode
    · simpa [heq] using h.nodes old hold

end Entries.DistinctKeys

/-! ### Steps on tables -/

theorem assign_distinctKeys {value : Setting} (hvalue : value.DistinctKeys)
    (table : Option (List String))
    (path seen : List String) (isOpen : Bool) {entries : Entries}
    (h : Entries.DistinctKeys entries) :
    Ensures Entries.DistinctKeys (assign table value seen isOpen path entries) := by
  induction path generalizing seen isOpen entries with
  | nil => exact .ok h
  | cons key rest ih =>
    cases rest with
    | nil =>
      rw [assign]
      refine .ite (fun _ => .error) fun _ => .ite (fun _ => .error) fun hnew => .ok ?_
      exact h.push (Option.not_isSome_iff_eq_none.1 hnew) (.value hvalue)
    | cons next rest =>
      rw [assign]
      cases hfound : entries.lookup key with
      | none => exact .bind (ih _ _ .nil) fun inner hinner => .pure (h.push hfound (hinner.table _))
      | some node =>
        have hnode := h.lookup hfound
        cases node with
        | value found => exact .error
        | tables items => exact .behind fun _ => .pure (h.replace .tables)
        | table origin inner =>
          have hinner := Entries.DistinctKeys.of_table hnode
          cases origin with
          | header => exact .error
          | path =>
              exact .bind (ih _ _ hinner) fun inner hinner => .pure (h.replace (hinner.table _))
          | dotted =>
              exact .bind (ih _ _ hinner) fun inner hinner => .pure (h.replace (hinner.table _))
      all_goals simp

theorem descend_distinctKeys {f : Entries → Except Cause Entries}
    (hf : ∀ entries, Entries.DistinctKeys entries → Ensures Entries.DistinctKeys (f entries))
    (path seen : List String) {entries : Entries} (h : Entries.DistinctKeys entries) :
    Ensures Entries.DistinctKeys (descend f seen path entries) := by
  induction path generalizing seen entries with
  | nil => exact hf entries h
  | cons key rest ih =>
    rw [descend]
    cases hfound : entries.lookup key with
    | none => exact .bind (ih _ .nil) fun inner hinner => .pure (h.push hfound (hinner.table _))
    | some node =>
      have hnode := h.lookup hfound
      cases node with
      | value found => exact .error
      | tables items => exact .behind fun _ => .pure (h.replace .tables)
      | table origin inner =>
        exact .bind (ih _ (.of_table hnode)) fun inner hinner => .pure (h.replace (hinner.table _))

theorem openTable_distinctKeys (path : List String) (key : String) {entries : Entries}
    (h : Entries.DistinctKeys entries) :
    Ensures Entries.DistinctKeys (openTable path key entries) := by
  unfold openTable
  cases hfound : entries.lookup key with
  | none => exact .ok (h.push hfound (Entries.DistinctKeys.nil.table _))
  | some node =>
    have hnode := h.lookup hfound
    cases node with
    | value found => exact .error
    | tables items => exact .error
    | table origin inner =>
      cases origin with
      | path => exact .ok (h.replace ((Entries.DistinctKeys.of_table hnode).table _))
      | header => exact .error
      | dotted => exact .error

theorem openNext_distinctKeys (path : List String) (key : String) {entries : Entries}
    (h : Entries.DistinctKeys entries) :
    Ensures Entries.DistinctKeys (openNext path key entries) := by
  unfold openNext
  cases hfound : entries.lookup key with
  | none => exact .ok (h.push hfound .tables)
  | some node =>
    cases node with
    | value found => exact .error
    | tables items => exact .ok (h.replace .tables)
    | table origin inner => exact .error

/-! ## Values -/

theorem settings_eq (entries : Entries) :
    settings entries = entries.map fun entry => (entry.1, entry.2.setting) := by
  induction entries with
  | nil => rfl
  | cons entry rest ih => rw [settings, ih, List.map_cons]

theorem Node.DistinctKeys.setting {node : Node} (h : node.DistinctKeys) :
    node.setting.DistinctKeys := by
  induction h with
  | value h => exact h
  | tables => exact .plain rfl
  | table hnodup _ ih =>
    rw [Node.setting, settings_eq]
    refine .table (by simpa [Function.comp_def] using hnodup) fun entry hentry => ?_
    obtain ⟨old, hold, rfl⟩ := List.mem_map.1 hentry
    exact ih old hold

theorem Entries.DistinctKeys.settings {entries : Entries} (h : Entries.DistinctKeys entries) :
    Table.DistinctKeys (settings entries) :=
  (h.table .header).setting

theorem inlineTable_distinctKeys {pairs : List (List String × Setting)}
    (h : ∀ pair ∈ pairs, pair.2.DistinctKeys) :
    Ensures Setting.DistinctKeys (inlineTable pairs) := by
  have hentries : Ensures Entries.DistinctKeys
      (pairs.foldlM (fun entries pair => assign none pair.2 [] true pair.1 entries) []) :=
    .foldlM (fun pair hpair entries hentries =>
      assign_distinctKeys (h pair hpair) _ _ _ _ hentries) .nil
  exact .bind hentries fun entries hentries => .pure hentries.settings

/-- A reader of values that hold no others. -/
def Scalar (result : Except Fault (Setting × List Char)) : Prop :=
  Ensures (fun found => found.1.isTable = false) result

theorem scalar_special (cs : List Char) : Scalar (special cs) := by
  unfold special
  split
  · exact .ok rfl
  · exact .ok rfl
  · exact .error

theorem scalar_float (cs : List Char) : Scalar (float cs) := by
  refine .mapError (.behind fun _ => .behind fun _ => ?_) _
  exact .ite (fun _ => .error) fun _ => .pure rfl

theorem inRange_plain (cs : List Char) (n : Int) :
    Ensures (fun found => found.isTable = false) (inRange cs n) :=
  .ite (fun _ => .error) fun _ => .ite (fun _ => .ok rfl) fun _ => .error

theorem scalar_based (base : Nat) (subject : Subject) (cs rest : List Char) :
    Scalar (based base subject cs rest) :=
  .behind fun _ => .bind (inRange_plain _ _) fun _ h => .pure h

theorem scalar_integer (cs : List Char) : Scalar (integer cs) := by
  unfold integer
  split
  · exact scalar_based _ _ _ _
  · exact scalar_based _ _ _ _
  · exact scalar_based _ _ _ _
  · exact .behind fun _ => .bind (inRange_plain _ _) fun _ h => .pure h

theorem scalar_scalar (cs : List Char) : Scalar (scalar cs) := by
  have hnumber : Scalar (number cs) :=
    .orElse (scalar_float cs) (.orElse (scalar_special cs) (scalar_integer cs))
  have hmoment : Scalar (moment cs) := .behind fun _ => .pure rfl
  unfold scalar
  split
  · exact .error
  · exact .ok rfl
  · exact .ok rfl
  · exact scalar_special _
  · exact scalar_special _
  · refine .ite (fun _ => .behind fun _ => .pure rfl) fun _ =>
      .ite (fun _ => .orElse hmoment hnumber) fun _ => ?_
    exact .ite (fun _ => .error) fun _ => .ite (fun _ => .error) fun _ =>
      .ite (fun _ => .error) fun _ => .error

/-- Every table that is read has distinct keys. The readers of values and of pairs call each other
with fewer steps left. -/
theorem value_distinctKeys (steps depth : Nat) (cs : List Char) :
    Ensures (fun found => found.1.DistinctKeys) (value steps depth cs) ∧
    ∀ later, Ensures (fun found => ∀ pair ∈ found.1, pair.2.DistinctKeys)
      (pairs steps depth later cs) := by
  induction steps generalizing depth cs with
  | zero =>
    unfold value pairs
    exact ⟨.error, fun later => .ok (by simp)⟩
  | succ steps ih =>
    constructor
    · unfold value
      split
      · exact .ite (fun _ => .error) fun _ => .behind fun _ => .behind fun _ => .pure (.plain rfl)
      · refine .ite (fun _ => .error) fun _ => .bind ((ih _ _).2 _) fun found hfound => ?_
        refine .bind (.mapError (inlineTable_distinctKeys hfound) _) fun table htable => ?_
        exact .behind fun _ => .pure htable
      · exact fun found hfound => .plain (scalar_scalar _ found hfound)
    · intro later
      unfold pairs
      refine .ite (fun _ => .ok (by simp)) fun _ => ?_
      split
      · exact .ite (fun _ => .error) fun _ => .ok (by simp)
      · refine .behind fun _ => .bind (.mapError (ih _ _).1 _) fun found hfound => ?_
        refine .bind ((ih _ _).2 _) fun more hmore => .pure ?_
        rw [List.forall_mem_cons]
        exact ⟨hfound, hmore⟩

/-! ## Documents -/

/-- The keys of a document as far as it has been read. -/
def State.DistinctKeys (s : State) : Prop :=
  Entries.DistinctKeys s.entries

theorem State.openAt_distinctKeys {openLast : List String → String → Entries → Except Cause Entries}
    (hopen : ∀ path key entries, Entries.DistinctKeys entries →
      Ensures Entries.DistinctKeys (openLast path key entries))
    (path : List String) {s : State} (h : s.DistinctKeys) :
    Ensures State.DistinctKeys (s.openAt openLast path) := by
  unfold openAt
  split
  · exact .ok h
  · exact .bind (descend_distinctKeys (hopen _ _) _ _ h) fun entries hentries => .pure hentries

theorem State.assignAt_distinctKeys (path : List String) {value : Setting}
    (hvalue : value.DistinctKeys) {s : State}
    (h : s.DistinctKeys) : Ensures State.DistinctKeys (s.assignAt path value) :=
  .bind (descend_distinctKeys (fun _ hentries => assign_distinctKeys hvalue _ _ _ _ hentries) _ _ h)
    fun _ hentries => .pure hentries

theorem header_distinctKeys (isNext : Bool) {s : State} (h : s.DistinctKeys)
    (cs inner : List Char) :
    Ensures (fun found => found.1.DistinctKeys) (header isNext s cs inner) := by
  refine .behind fun _ => .behind fun _ => .behind fun _ => ?_
  have hopen : ∀ path key entries, Entries.DistinctKeys entries → Ensures Entries.DistinctKeys
      ((if isNext then openNext else openTable) path key entries) := by
    intro path key entries hentries
    cases isNext
    · exact openTable_distinctKeys path key hentries
    · exact openNext_distinctKeys path key hentries
  exact .bind (.mapError (State.openAt_distinctKeys hopen _ h) _) fun _ hs => .pure hs

theorem pair_distinctKeys {s : State} (h : s.DistinctKeys) (cs : List Char) :
    Ensures (fun found => found.1.DistinctKeys) (pair s cs) := by
  refine .behind fun _ => .behind fun _ => .bind (value_distinctKeys _ _ _).1 fun found hfound => ?_
  refine .behind fun _ => .bind (.mapError (State.assignAt_distinctKeys _ hfound h) _)
    fun _ hs => ?_
  exact .pure hs

theorem line_distinctKeys {s : State} (h : s.DistinctKeys) (cs : List Char) :
    Ensures (fun found => found.1.DistinctKeys) (line s cs) := by
  unfold line
  dsimp only
  split
  · exact .mapError (header_distinctKeys _ h _ _) _
  · exact .error
  · exact .mapError (header_distinctKeys _ h _ _) _
  · exact .ite (fun _ => .behind fun _ => .pure h) fun _ => pair_distinctKeys h _
  · exact .ok h

theorem lines_distinctKeys (most : Nat) {s : State} (h : s.DistinctKeys) (cs : List Char) :
    Ensures State.DistinctKeys (lines most s cs) := by
  induction most generalizing s cs with
  | zero =>
    cases cs with
    | nil => exact .ok h
    | cons c rest => exact .error
  | succ most ih =>
    cases cs with
    | nil => exact .ok h
    | cons c rest => exact .bind (line_distinctKeys h _) fun found hfound => ih hfound _

/-- The table of a document has distinct keys, and so has every table in it. -/
theorem parse_distinctKeys (text : String) : Ensures Table.DistinctKeys (parse text) := by
  have hstart : State.DistinctKeys {} := Entries.DistinctKeys.nil
  exact .bind (lines_distinctKeys _ hstart _) fun _ hs => .pure (Entries.DistinctKeys.settings hs)

end PythonToCSharp.Toml
