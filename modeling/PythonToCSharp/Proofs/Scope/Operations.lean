import PythonToCSharp.Proofs.Scope.Generated

/-!
The operations on the names of a frame as data, and what a sequence of them leaves behind.

A name is declared after a sequence exactly when it was recorded and is not excluded, in whatever
order the two happened, and it is declared once. The names that are handed out are none of those
that were excluded or set aside before.
-/

namespace PythonToCSharp.Scope

/-- An operation on the names of a frame. -/
inductive Operation where
  | record (name : String)
  | recordHinted (name hint : String)
  | exclude (name : String)
  | reserve (names : List String)
  | fresh (base : String)
  | enterTry
  | exitTry
  deriving DecidableEq, Repr

namespace Operation

/-- The name that an operation records. -/
def recorded? : Operation → Option String
  | .record name => some name
  | .recordHinted name _ => some name
  | _ => none

/-- The name that an operation excludes. -/
def excluded? : Operation → Option String
  | .exclude name => some name
  | _ => none

/-- The base that an operation generates a name from. -/
def base? : Operation → Option String
  | .fresh base => some base
  | .enterTry => some Frame.flagBase
  | _ => none

end Operation

namespace Frame

/-- The frame after an operation. -/
def apply (frame : Frame) : Operation → Frame
  | .record name => frame.record name
  | .recordHinted name hint => frame.recordHinted name hint
  | .exclude name => frame.exclude name
  | .reserve names => frame.reserve names
  | .fresh base => (frame.fresh base).2
  | .enterTry => frame.enterTry.2
  | .exitTry => frame.exitTry

/-- The name that an operation hands out. -/
def answer? (frame : Frame) : Operation → Option String
  | .fresh base => some (frame.fresh base).1
  | .enterTry => some frame.enterTry.1
  | _ => none

/-- The frame after operations, from the left. -/
def run (frame : Frame) (ops : List Operation) : Frame :=
  ops.foldl apply frame

/-- The names that operations hand out, in order. -/
def handedOut (frame : Frame) : List Operation → List String
  | [] => []
  | op :: rest => (frame.answer? op).toList ++ (frame.apply op).handedOut rest

theorem run_nil (frame : Frame) : frame.run [] = frame := rfl

theorem run_cons (frame : Frame) (op : Operation) (rest : List Operation) :
    frame.run (op :: rest) = (frame.apply op).run rest := rfl

/-! ## What one operation does -/

theorem names_record (frame : Frame) (name : String) :
    (frame.record name).names = if frame.isNew name then frame.names ++
      [name] else frame.names := by
  unfold record
  split <;> simp [names]

theorem excluded_record (frame : Frame) (name : String) :
    (frame.record name).excluded = frame.excluded := by
  unfold record
  split <;> rfl

theorem reserved_record (frame : Frame) (name : String) :
    (frame.record name).reserved = frame.reserved := by
  unfold record
  split <;> rfl

theorem flags_record (frame : Frame) (name : String) : (frame.record name).flags = frame.flags := by
  unfold record
  split <;> rfl

theorem names_recordHinted (frame : Frame) (name hint : String) :
    (frame.recordHinted name hint).names = (frame.record name).names := by
  simp [recordHinted, names]

theorem names_exclude (frame : Frame) (name : String) :
    (frame.exclude name).names = frame.names.filter (· != name) := by
  simp [exclude, names, List.filter_map, Function.comp_def]

theorem mem_insertNew {items : List String} {item name : String} :
    name ∈ insertNew items item ↔ name ∈ items ∨ name = item := by
  unfold insertNew
  split <;> simp_all

/-- Adding texts one by one adds those that are new, in the order in which they are first seen. -/
theorem insertAll_eq (known items : List String) :
    items.foldl insertNew known = known ++
      (items.filter fun item => !known.contains item).eraseDups := by
  induction items generalizing known with
  | nil => simp
  | cons item rest ih =>
    rw [List.foldl_cons, ih, List.filter_cons, insertNew]
    cases hknown : known.contains item with
    | true => rfl
    | false =>
      have hfilter : (rest.filter fun other => !(known ++ [item]).contains other) =
          (rest.filter fun other => !known.contains other).filter fun other => !other == item := by
        rw [List.filter_filter]
        refine List.filter_congr fun other _ => ?_
        by_cases hsame : other = item <;> simp [hsame]
      simp only [Bool.false_eq_true, if_false, Bool.not_false, if_true, List.eraseDups_cons,
        hfilter, List.append_assoc, List.singleton_append]

theorem eraseDups_concat (items : List String) (item : String) :
    (items ++ [item]).eraseDups = insertNew items.eraseDups item := by
  have hall : ∀ items : List String, items.eraseDups = items.foldl insertNew [] := by
    intro items
    simp [insertAll_eq]
  rw [hall, hall, List.foldl_append]
  rfl

theorem prefix_insertNew (items : List String) (item : String) :
    items <+: insertNew items item := by
  unfold insertNew
  split
  · exact List.prefix_refl _
  · exact List.prefix_append _ _

theorem names_enterTry (frame : Frame) : frame.enterTry.2.names = frame.names := by
  unfold enterTry
  split <;> rfl

theorem excluded_enterTry (frame : Frame) : frame.enterTry.2.excluded = frame.excluded := by
  unfold enterTry
  split <;> rfl

/-- A name is excluded from the moment of its exclusion on. -/
theorem mem_excluded_apply (frame : Frame) (op : Operation) (name : String) :
    name ∈ (frame.apply op).excluded ↔ name ∈ frame.excluded ∨ op.excluded? = some name := by
  cases op with
  | record other => simp [apply, Operation.excluded?, excluded_record]
  | recordHinted other hint =>
    have h : (frame.recordHinted other hint).excluded = frame.excluded :=
      excluded_record frame other
    simp [apply, Operation.excluded?, h]
  | exclude other => simp [apply, Operation.excluded?, exclude, mem_insertNew, eq_comm]
  | reserve names => simp [apply, Operation.excluded?, reserve]
  | fresh base => simp [apply, Operation.excluded?, fresh]
  | enterTry => simp [apply, Operation.excluded?, excluded_enterTry]
  | exitTry => simp [apply, Operation.excluded?, exitTry]

/-- Every name is declared at most once, and none that is excluded. -/
structure Tidy (frame : Frame) : Prop where
  nodup : frame.names.Nodup
  apart : ∀ name ∈ frame.names, name ∉ frame.excluded

/-- A frame without declarations. -/
theorem tidy_of_nil {frame : Frame} (h : frame.names = []) : frame.Tidy := by
  constructor <;> simp [h]

variable {frame : Frame}

theorem mem_names_record (h : frame.Tidy) (other name : String) :
    name ∈ (frame.record other).names ↔ (name ∈ frame.names ∨ other = name) ∧
      name ∉ frame.excluded := by
  have hname : name ∈ frame.names → name ∉ frame.excluded := h.apart name
  rw [names_record]
  by_cases hn : name = other
  · subst hn
    by_cases he : name ∈ frame.excluded <;> by_cases hd : name ∈ frame.names <;>
      simp_all [isNew, isDeclared]
  · have hn' : other ≠ name := fun heq => hn heq.symm
    split <;> simp_all

/-- What is declared after an operation: what was declared or is recorded by it, unless it is
excluded. -/
theorem mem_names_apply (h : frame.Tidy) (op : Operation) (name : String) :
    name ∈ (frame.apply op).names ↔
      (name ∈ frame.names ∨ op.recorded? = some name) ∧ name ∉ (frame.apply op).excluded := by
  have hname : name ∈ frame.names → name ∉ frame.excluded := h.apart name
  rw [mem_excluded_apply]
  cases op with
  | record other =>
    simp only [apply, mem_names_record h, Operation.recorded?, Operation.excluded?,
      Option.some.injEq]
    simp
  | recordHinted other hint =>
    simp only [apply, names_recordHinted, mem_names_record h, Operation.recorded?,
      Operation.excluded?, Option.some.injEq]
    simp
  | exclude other =>
    simp only [apply, names_exclude, List.mem_filter, bne_iff_ne, Operation.recorded?,
      Operation.excluded?, Option.some.injEq]
    constructor
    · rintro ⟨hmem, hne⟩
      exact ⟨.inl hmem, by simp [hname hmem, Ne.symm hne]⟩
    · rintro ⟨hmem | hno, hout⟩
      · exact ⟨hmem, fun heq => hout (.inr heq.symm)⟩
      · cases hno
  | enterTry => simpa [apply, Operation.recorded?, Operation.excluded?, names_enterTry] using hname
  | _ =>
    show name ∈ frame.names ↔ _
    simpa [Operation.recorded?, Operation.excluded?] using hname

theorem nodup_names_record (h : frame.Tidy) (name : String) : (frame.record name).names.Nodup := by
  rw [names_record]
  split
  · rename_i hnew
    have hout : name ∉ frame.names := by
      simp only [isNew, isDeclared, Bool.not_eq_true', Bool.or_eq_false_iff] at hnew
      simpa using hnew.2
    refine List.nodup_append.2 ⟨h.nodup, List.nodup_singleton _, ?_⟩
    rintro declared hdeclared other ho rfl
    exact hout (List.mem_singleton.1 ho ▸ hdeclared)
  · exact h.nodup

theorem Tidy.apply (h : frame.Tidy) (op : Operation) : (frame.apply op).Tidy where
  nodup := by
    cases op with
    | record name => exact nodup_names_record h name
    | recordHinted name hint =>
      show (frame.recordHinted name hint).names.Nodup
      rw [names_recordHinted]
      exact nodup_names_record h name
    | exclude name =>
      show (frame.exclude name).names.Nodup
      rw [names_exclude]
      exact h.nodup.filter _
    | enterTry =>
      show frame.enterTry.2.names.Nodup
      rw [names_enterTry]
      exact h.nodup
    | _ => exact h.nodup
  apart name hname := ((mem_names_apply h op name).1 hname).2

/-! ## What a sequence of operations does -/

theorem mem_excluded_run (frame : Frame) (ops : List Operation) (name : String) :
    name ∈ (frame.run ops).excluded ↔ name ∈ frame.excluded ∨
      ∃ op ∈ ops, op.excluded? = some name := by
  induction ops generalizing frame with
  | nil => simp [run_nil]
  | cons op rest ih => rw [run_cons, ih, mem_excluded_apply]; simp [or_assoc]

theorem Tidy.run (h : frame.Tidy) (ops : List Operation) : (frame.run ops).Tidy := by
  induction ops generalizing frame with
  | nil => exact h
  | cons op rest ih => exact ih (h.apply op)

/-- What is declared in the end: what was declared or recorded at some time, unless it is excluded.
-/
theorem mem_names_run (h : frame.Tidy) (ops : List Operation) (name : String) :
    name ∈ (frame.run ops).names ↔
      (name ∈ frame.names ∨ ∃ op ∈ ops, op.recorded? = some name) ∧
        name ∉ (frame.run ops).excluded := by
  induction ops generalizing frame with
  | nil =>
    have hname : name ∈ frame.names → name ∉ frame.excluded := h.apart name
    simpa [run_nil] using hname
  | cons op rest ih =>
    rw [run_cons, ih (h.apply op), mem_names_apply h]
    -- what is excluded by the first operation stays so to the end
    have hkeep : name ∈ (frame.apply op).excluded → name ∈ ((frame.apply op).run rest).excluded :=
      fun he => (mem_excluded_run _ rest name).2 (.inl he)
    by_cases he : name ∈ (frame.apply op).excluded
    · simp [hkeep he]
    · simp [he, or_assoc]

/-! ## Names that are handed out -/

/-- The name looks like a generated one: a base, with or without a number behind it. -/
def LooksGenerated (name : String) : Prop :=
  ∃ base ∈ bases, ∃ n, name = candidate base n

/-- The names held are excluded or set aside, and the flags are generated names apart from them. -/
structure HoldsBack (held : List String) (frame : Frame) : Prop where
  back : ∀ name ∈ held, name ∈ frame.excluded ∨ name ∈ frame.reserved
  flags : ∀ flag ∈ frame.flags, flag ∉ held ∧ LooksGenerated flag

variable {held : List String}

theorem HoldsBack.fresh (h : HoldsBack held frame) {base : String} (hb : base ∈ bases) :
    (frame.fresh base).1 ∉ held ∧ LooksGenerated (frame.fresh base).1 := by
  refine ⟨?_, base, hb, _, rfl⟩
  intro hheld
  refine frame.fresh_notMem_taken base ?_
  simp only [taken, List.mem_append]
  exact .inr (h.back _ hheld)

theorem HoldsBack.of_eq {after : Frame} (h : HoldsBack held frame)
    (he : after.excluded = frame.excluded)
    (hr : after.reserved = frame.reserved) (hf : after.flags = frame.flags) :
    HoldsBack held after where
  back := by rw [he, hr]; exact h.back
  flags := by rw [hf]; exact h.flags

/-- Entering a `try` hands out a flag of before or a new name. -/
theorem HoldsBack.enterTry (h : HoldsBack held frame) :
    HoldsBack held frame.enterTry.2 ∧ frame.enterTry.1 ∉ held ∧
      LooksGenerated frame.enterTry.1 := by
  have hnew : (frame.fresh flagBase).1 ∉ held ∧ LooksGenerated (frame.fresh flagBase).1 :=
    h.fresh (by decide)
  unfold Frame.enterTry
  split
  · rename_i flag hflag
    exact ⟨h.of_eq rfl rfl rfl, h.flags flag (List.mem_of_getElem? hflag)⟩
  · refine ⟨⟨h.back, ?_⟩, hnew⟩
    intro flag hflag
    rcases List.mem_append.1 hflag with hold | hlast
    · exact h.flags flag hold
    · rw [List.mem_singleton.1 hlast]
      exact hnew

/-- Names that are held back stay so, and none of them is handed out. -/
theorem HoldsBack.step (h : HoldsBack held frame) {op : Operation}
    (hb : ∀ base ∈ op.base?, base ∈ bases) :
    HoldsBack held (frame.apply op) ∧ ∀ name ∈ frame.answer? op,
      name ∉ held ∧ LooksGenerated name := by
  cases op with
  | record name =>
    exact ⟨h.of_eq (excluded_record _ _) (reserved_record _ _)
      (flags_record _ _), by simp [answer?]⟩
  | recordHinted name hint =>
    exact ⟨h.of_eq (excluded_record _ _) (reserved_record _ _)
      (flags_record _ _), by simp [answer?]⟩
  | exclude name =>
    refine ⟨⟨?_, h.flags⟩, by simp [answer?]⟩
    intro other ho
    rcases h.back other ho with he | hr
    · exact .inl (mem_insertNew.2 (.inl he))
    · exact .inr hr
  | reserve names =>
    refine ⟨⟨?_, h.flags⟩, by simp [answer?]⟩
    intro other ho
    rcases h.back other ho with he | hr
    · exact .inl he
    · exact .inr (List.mem_append_left _ hr)
  | fresh base =>
    refine ⟨h.of_eq rfl rfl rfl, ?_⟩
    rintro name ⟨⟩
    exact h.fresh (hb base rfl)
  | enterTry =>
    refine ⟨h.enterTry.1, ?_⟩
    rintro name ⟨⟩
    exact h.enterTry.2
  | exitTry => exact ⟨h.of_eq rfl rfl rfl, by simp [answer?]⟩

/-- What is handed out by operations looks generated and is none of the names that are held back. -/
theorem HoldsBack.handedOut (h : HoldsBack held frame) {ops : List Operation}
    (hb : ∀ op ∈ ops, ∀ base ∈ op.base?, base ∈ bases) :
    ∀ name ∈ frame.handedOut ops, name ∉ held ∧ LooksGenerated name := by
  induction ops generalizing frame with
  | nil => simp [Frame.handedOut]
  | cons op rest ih =>
    obtain ⟨hnext, hanswer⟩ := h.step (hb op List.mem_cons_self)
    intro name hname
    rcases List.mem_append.1 hname with hfirst | hrest
    · exact hanswer name (Option.mem_toList.1 hfirst)
    · exact ih hnext (fun other ho => hb other (List.mem_cons_of_mem _ ho)) name hrest

theorem mem_flags_apply (frame : Frame) (op : Operation) {flag : String}
    (h : flag ∈ (frame.apply op).flags) : flag ∈ frame.flags ∨ flag ∈ frame.answer? op := by
  cases op with
  | record name => exact .inl (flags_record frame name ▸ h)
  | recordHinted name hint => exact .inl (flags_record frame name ▸ h)
  | enterTry =>
    simp only [apply, enterTry] at h
    split at h
    · exact .inl h
    · rename_i hnone
      rcases List.mem_append.1 h with hold | hlast
      · exact .inl hold
      · refine .inr ?_
        simp only [answer?, enterTry, hnone]
        simpa using (List.mem_singleton.1 hlast).symm
  | _ => exact .inl h

/-- Every flag was handed out, apart from those that were there before. -/
theorem mem_flags_run (frame : Frame) (ops : List Operation) {flag : String}
    (h : flag ∈ (frame.run ops).flags) : flag ∈ frame.flags ∨ flag ∈ frame.handedOut ops := by
  induction ops generalizing frame with
  | nil => exact .inl h
  | cons op rest ih =>
    simp only [handedOut, List.mem_append, Option.mem_toList]
    rcases ih (frame.apply op) h with hbefore | hlater
    · rcases frame.mem_flags_apply op hbefore with hold | hanswer
      · exact .inl hold
      · exact .inr (.inl hanswer)
    · exact .inr (.inr hlater)

/-- What a frame without flags generates: none of the names that it excludes or sets aside from the
start. -/
theorem generated_apart {start : Frame} (hflags : start.flags = []) {ops : List Operation}
    (hb : ∀ op ∈ ops, ∀ base ∈ op.base?, base ∈ bases) {name : String}
    (h : name ∈ (start.run ops).flags ∨ name ∈ start.handedOut ops) :
    name ∉ start.excluded ∧ name ∉ start.reserved ∧ LooksGenerated name := by
  have hstart : HoldsBack (start.excluded ++ start.reserved) start := by
    refine ⟨fun other ho => List.mem_append.1 ho, ?_⟩
    rw [hflags]
    intro flag hflag
    cases hflag
  have hhanded : name ∈ start.handedOut ops := by
    rcases h with hflag | hanswer
    · have hnew := start.mem_flags_run ops hflag
      simpa [hflags] using hnew
    · exact hanswer
  obtain ⟨hapart, hlooks⟩ := hstart.handedOut hb name hhanded
  rw [List.mem_append, not_or] at hapart
  exact ⟨hapart.1, hapart.2, hlooks⟩

end Frame

end PythonToCSharp.Scope
