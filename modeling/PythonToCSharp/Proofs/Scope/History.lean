import PythonToCSharp.Proofs.Scope.Handles

/-!
What a frame declares, read off its history: the names that were recorded and that no change
excludes, in the order in which they were recorded first, each with the last type hint that it was
given. When a name is excluded does not matter, so it is one line that is declared whether a name is
a parameter, which is excluded before anything is recorded, or turns out to belong elsewhere after
it was assigned.
-/

namespace PythonToCSharp.Scope

open CSharp (escapeIdentifier)

/-! ## Histories -/

namespace Change

/-- The name that a change records. -/
def recorded? : Change → Option String
  | .names op => op.recorded?
  | _ => none

/-- The name that a change excludes. -/
def excluded? : Change → Option String
  | .names op => op.excluded?
  | _ => none

/-- The type hint that a change gives to a name. -/
def hint? (name : String) : Change → Option String
  | .names (.recordHinted other hint) => if other = name then some hint else none
  | _ => none

theorem hint?_eq_none {change : Change} {name : String} (h : change.recorded? ≠ some name) :
    change.hint? name = none := by
  unfold hint?
  split
  next other _ => exact if_neg fun heq => h (congrArg some heq)
  next => rfl

end Change

/-- The names that changes record, in order, as often as they do. -/
def recordedIn (changes : List Change) : List String :=
  changes.filterMap Change.recorded?

/-- The names that changes exclude. -/
def excludedIn (changes : List Change) : List String :=
  changes.filterMap Change.excluded?

/-- The last type hint that changes give to a name. -/
def lastHint? (changes : List Change) (name : String) : Option String :=
  (changes.filterMap (Change.hint? name)).getLast?

/-- The names that changes record and never exclude, each once, in the order in which they are first
recorded. -/
def declaredIn (changes : List Change) : List String :=
  (recordedIn changes).eraseDups.filter fun name => !(excludedIn changes).contains name

theorem lastHint?_of_notMem {changes : List Change} {name : String}
    (h : name ∉ recordedIn changes) : lastHint? changes name = none := by
  rw [lastHint?, List.getLast?_eq_none_iff, List.filterMap_eq_nil_iff]
  exact fun change hchange => Change.hint?_eq_none fun heq =>
    h (List.mem_filterMap.2 ⟨change, hchange, heq⟩)

section Concat

variable (history : List Change) (change : Change)

theorem recordedIn_concat :
    recordedIn (history ++ [change]) = recordedIn history ++ change.recorded?.toList := by
  cases h : change.recorded? <;> simp [recordedIn, h]

theorem excludedIn_concat :
    excludedIn (history ++ [change]) = excludedIn history ++ change.excluded?.toList := by
  cases h : change.excluded? <;> simp [excludedIn, h]

theorem lastHint?_concat (name : String) :
    lastHint? (history ++ [change]) name = (change.hint? name).or (lastHint? history name) := by
  cases h : change.hint? name <;> simp [lastHint?, h]

end Concat

/-! ## One change -/

/-- The frame declares what the history says. -/
structure DeclaredBy (history : List Change) (frame : Frame) : Prop where
  vars : frame.vars = (declaredIn history).map fun name => (name, lastHint? history name)
  excluded : ∀ name, name ∈ frame.excluded ↔ name ∈ excludedIn history

namespace DeclaredBy

variable {history : List Change} {frame : Frame} (h : DeclaredBy history frame)
include h

theorem names : frame.names = declaredIn history := by
  simp [Frame.names, h.vars, Function.comp_def]

/-- A name is new as long as the history neither records nor excludes it. -/
theorem isNew_iff (name : String) :
    frame.isNew name = true ↔ name ∉ recordedIn history ∧ name ∉ excludedIn history := by
  have hnew : frame.isNew name = true ↔ name ∉ frame.excluded ∧ name ∉ frame.names := by
    simp [Frame.isNew, Frame.isDeclared]
  have hdeclared :
      name ∈ declaredIn history ↔ name ∈ recordedIn history ∧ name ∉ excludedIn history := by
    simp [declaredIn]
  rw [hnew, h.names, h.excluded, hdeclared]
  tauto

theorem record (name : String) :
    DeclaredBy (history ++ [.names (.record name)]) (frame.record name) where
  vars := by
    have hhint :
        ∀ other, lastHint? (history ++ [.names (.record name)]) other = lastHint? history other :=
      lastHint?_concat history _
    have hnames : declaredIn (history ++ [.names (.record name)]) =
        if frame.isNew name then declaredIn history ++ [name] else declaredIn history := by
      simp only [declaredIn, recordedIn_concat, excludedIn_concat, Change.recorded?,
        Change.excluded?, Operation.recorded?, Operation.excluded?, Option.toList_some,
        Option.toList_none, List.append_nil, Frame.eraseDups_concat, insertNew, h.isNew_iff]
      by_cases hr : name ∈ recordedIn history <;> by_cases he :
        name ∈ excludedIn history <;> simp [hr, he]
    rw [hnames, Frame.record]
    simp only [hhint]
    split
    next hnew =>
      rw [List.map_append, ← h.vars, List.map_singleton,
        lastHint?_of_notMem ((h.isNew_iff name).1 hnew).1]
    next => exact h.vars
  excluded other := by
    rw [Frame.excluded_record, h.excluded, excludedIn_concat]
    simp [Change.excluded?, Operation.excluded?]

/-- The hint goes to the name wherever it stands, and all others keep theirs. -/
theorem recordHinted (name hint : String) :
    DeclaredBy (history ++ [.names (.recordHinted name hint)]) (frame.recordHinted name hint) where
  vars := by
    have hnames : declaredIn (history ++ [.names (.recordHinted name hint)]) =
        declaredIn (history ++ [.names (.record name)]) := by
      simp only [declaredIn, recordedIn_concat, excludedIn_concat]
      rfl
    rw [Frame.recordHinted, (h.record name).vars, hnames, List.map_map]
    refine List.map_congr_left fun other _ => ?_
    by_cases hsame : other = name
    · simp [lastHint?_concat, Change.hint?, hsame]
    · simp [lastHint?_concat, Change.hint?, hsame, Ne.symm hsame]
  excluded other := by
    have hrecord := (h.record name).excluded other
    rw [excludedIn_concat] at hrecord ⊢
    exact hrecord

theorem exclude (name : String) :
    DeclaredBy (history ++ [.names (.exclude name)]) (frame.exclude name) where
  vars := by
    have hhint :
        ∀ other, lastHint? (history ++ [.names (.exclude name)]) other = lastHint? history other :=
      lastHint?_concat history _
    have hnames : declaredIn (history ++ [.names (.exclude name)]) =
        (declaredIn history).filter (· != name) := by
      simp only [declaredIn, recordedIn_concat, excludedIn_concat, List.filter_filter,
        Change.recorded?, Change.excluded?, Operation.recorded?, Operation.excluded?,
        Option.toList_some, Option.toList_none, List.append_nil]
      refine List.filter_congr fun other _ => ?_
      by_cases hsame : other = name <;> simp [hsame]
    rw [Frame.exclude, h.vars, hnames, List.filter_map]
    simp only [hhint]
    rfl
  excluded other := by
    rw [Frame.exclude, Frame.mem_insertNew, h.excluded, excludedIn_concat]
    simp [Change.excluded?, Operation.excluded?]

/-- A change that neither records nor excludes. -/
theorem unrelated {change : Change} (hrecorded : change.recorded? = none)
    (hexcluded : change.excluded? = none)
    {after : Frame} (hvars : after.vars = frame.vars) (hout : after.excluded = frame.excluded) :
    DeclaredBy (history ++ [change]) after where
  vars := by
    have hhint : ∀ name, lastHint? (history ++ [change]) name = lastHint? history name := by
      intro name
      rw [lastHint?_concat, Change.hint?_eq_none (by simp [hrecorded]), Option.none_or]
    simp only [hvars, h.vars, declaredIn, recordedIn_concat, excludedIn_concat, hrecorded,
      hexcluded, hhint, Option.toList_none, List.append_nil]
  excluded name := by rw [hout, h.excluded, excludedIn_concat, hexcluded, Option.toList_none,
    List.append_nil]

theorem change (change : Change) : DeclaredBy (history ++ [change]) (frame.change change) := by
  cases change with
  | names op =>
    cases op with
    | record name => exact h.record name
    | recordHinted name hint => exact h.recordHinted name hint
    | exclude name => exact h.exclude name
    | enterTry =>
      refine h.unrelated rfl rfl ?_ (Frame.excluded_enterTry frame)
      simp only [Frame.change, Frame.apply, Frame.enterTry]
      split <;> rfl
    | _ => exact h.unrelated rfl rfl rfl rfl
  | _ => exact h.unrelated rfl rfl rfl rfl

theorem changes (changes : List Change) :
    DeclaredBy (history ++ changes) (changes.foldl Frame.change frame) := by
  induction changes generalizing history frame with
  | nil => simpa using h
  | cons change rest ih =>
    rw [List.append_cons]
    exact ih (h.change change)

end DeclaredBy

/-! ## Whole histories -/

namespace Life

theorem declaredBy (life : Life) : DeclaredBy life.changes life.frame := by
  have hstart : DeclaredBy [] { kind := life.kind } := ⟨rfl, fun _ => Iff.rfl⟩
  exact hstart.changes life.changes

theorem declarationLine_eq (life : Life) (lead type : String) :
    life.frame.declarationLine lead type =
      CSharp.declarationLine lead type ((declaredIn life.changes).map escapeIdentifier) := by
  rw [Frame.declarationLine, Frame.declared, life.declaredBy.names]

/-- The declarations of a frame in closed form, whatever else was done to it. It declares the names
that were recorded and never excluded, each once, in the order in which they were recorded first,
and each with the last hint that it was given. A name is new to the frame when it is recorded
exactly if it was neither recorded nor excluded before. The line of declarations depends on what was
recorded, in which order, and on what was excluded, but not on when. -/
theorem declarations_closed_form (life : Life) :
    life.frame.vars = (declaredIn life.changes).map
      (fun name => (name, lastHint? life.changes name)) ∧
    (∀ before change after name, life.changes = before ++ change :: after →
      change.recorded? = some name → ({ life with changes := before }.frame.isNew name = true ↔
        name ∉ recordedIn before ∧ name ∉ excludedIn before)) ∧
    (∀ lead type, life.frame.declarationLine lead type =
      CSharp.declarationLine lead type ((declaredIn life.changes).map escapeIdentifier)) ∧
    ∀ other : Life, recordedIn other.changes = recordedIn life.changes →
      (∀ name, name ∈ excludedIn other.changes ↔ name ∈ excludedIn life.changes) →
      ∀ lead type, other.frame.declarationLine lead type =
        life.frame.declarationLine lead type := by
  refine ⟨life.declaredBy.vars,
    fun before _ _ name _ _ => (declaredBy { life with changes := before }).isNew_iff name,
    life.declarationLine_eq, fun other hrecorded hexcluded lead type => ?_⟩
  have hdeclared : declaredIn other.changes = declaredIn life.changes := by
    rw [declaredIn, declaredIn, hrecorded]
    refine List.filter_congr fun name _ => ?_
    rw [Bool.eq_iff_iff]
    simp [hexcluded]
  rw [declarationLine_eq, declarationLine_eq, hdeclared]

/-- A method: its parameter is excluded first, and the counter turns out to be global after it was
assigned. -/
def countingMethod : List Change :=
  [.names (.exclude "self"), .setReceiver "self", .names (.record "counter"),
    .names (.recordHinted "string" "int"),
    .names (.fresh "_it"), .names (.exclude "counter"), .names (.record "self"),
      .names (.record "total"),
    .names (.recordHinted "string" "float"), .names (.record "counter")]

/-- The same assignments with the exclusions the other way round. -/
def countingMethodTurned : List Change :=
  [.names (.exclude "counter"), .names (.record "counter"), .names (.recordHinted "string" "int"),
    .names (.record "self"), .names (.record "total"), .names (.record "string"),
      .names (.record "counter"),
    .names (.exclude "self")]

/-- The line is the same for both, and the counter is new when it is first recorded although it is
not declared. -/
theorem countingMethod_closed_form :
    (frame ⟨0, .function, countingMethod⟩).vars = [("string", some "float"), ("total", none)] ∧
    (frame ⟨0, .function, countingMethod.take 2⟩).isNew "counter" = true ∧
    (frame ⟨0, .function, countingMethod⟩).declarationLine "" "PyVariable" =
      some "PyVariable @string, total;" ∧
    (frame ⟨1, .function, countingMethodTurned⟩).declarationLine "" "PyVariable" =
      (frame ⟨0, .function, countingMethod⟩).declarationLine "" "PyVariable" := by
  obtain ⟨hvars, hnew, hline, hturned⟩ := declarations_closed_form ⟨0, .function, countingMethod⟩
  have hexcluded : excludedIn countingMethod = ["self", "counter"] ∧
      excludedIn countingMethodTurned = ["counter", "self"] := by decide
  refine ⟨hvars.trans
    (by decide), (hnew (countingMethod.take 2) _ _ "counter" rfl rfl).2 (by decide),
    (hline "" "PyVariable").trans
      (by decide), hturned _ (by decide) (fun name => ?_) "" "PyVariable"⟩
  simp [hexcluded, or_comm]

end Life

end PythonToCSharp.Scope
