import PythonToCSharp.Proofs.Execution.Tries

/-!
An exception in the place of a `break`.

A `break` clears the mark of its loop before a `finally` around it runs. If the `finally` raises and
the exception is caught in the loop, the loop goes on with its mark cleared. When its test ends the
loop, the `else` should run, and the code skips it.
-/

namespace PythonToCSharp

namespace Python

/-- The meaning under which the `else` of a `while` always runs behind a loop that its test has
ended. -/
def Meaning.strict (M : Meaning) : Meaning :=
  { M with whileElseOpen := False }

theorem Runs.of_singleton {M : Meaning} {stmt : Stmt} {s s' : M.State} {tr : List M.Event}
    {o : Outcome M.Fault} (h : Runs M (.block [stmt]) s tr o s') (ho : o ≠ .cut) :
    Runs M (.stmt stmt.kind) s tr o s' := by
  cases h with
  | cons hs hr =>
    cases hr with
    | nil => rwa [List.append_nil]
    | _ => exact absurd rfl ho
  | stop hs _ => exact hs
  | _ => exact absurd rfl ho

end Python

namespace Lowering

open CSharp (Config Event Exec Flags Machine Tests)
open Python (Runs)

/-! ## The loop and its lines -/

/-- A `break` behind which `fail` is called. -/
def endedBreak : Python.Stmt :=
  ⟨.tryBlock [⟨.breakStmt, ⟨4, 13⟩⟩] [] none (some [⟨.expr (.call (.name "fail") []), ⟨6, 13⟩⟩]),
    ⟨3, 9⟩⟩

/-- What stays in the loop around it when `fail` raises. -/
def replacedBreak : Python.Stmt :=
  ⟨.tryBlock [endedBreak] [⟨[.name "Failure"], none, [⟨.continueStmt, ⟨8, 9⟩⟩], ⟨7, 5⟩⟩] none none,
    ⟨2, 5⟩⟩

/-- The loop, with an `else`. -/
def replacingLoop : Python.Stmt :=
  ⟨.whileLoop (.call (.name "more") []) [replacedBreak]
    (some [⟨.expr (.call (.name "done") []), ⟨10, 5⟩⟩]), ⟨1, 1⟩⟩

/-- A call in C#. -/
def called (id : String) : CSharp.Expr :=
  .call (.name id) []

def endedLines (mark inner : String) : Block :=
  [setMark inner false,
    .tryCatch [setMark mark false, .break_, setMark inner true] [] (some [.expr (called "fail")])]

def replacedLines (mark outer inner : String) : Block :=
  [setMark outer false,
    .tryCatch (endedLines mark inner ++ [setMark outer true])
      [⟨.one (.name "Failure") none, [.continue_]⟩] none]

/-- The lines for the loop, with its mark and the flags of its `try` statements. -/
def replacingLines (mark outer inner : String) : Block :=
  [.flag mark true, .whileLoop (called "more") (replacedLines mark outer inner),
    guarded (.name mark) [.expr (called "done")]]

section Lines

variable {names : LibraryNames} {S : Body} {own : String → Prop} {mark : Option String}
  {id : String} {lines : Block}

theorem lowersExpr_call {lowered : CSharp.Expr}
    (h : LowersExpr names none (.call (.name id) []) lowered) :
    lowered = called (CSharp.escapeIdentifier id) := by
  obtain ⟨before, hself, rfl⟩ := h
  have hname : Yields none (lowerName id) _ := .lowerName id
  exact congrArg (CSharp.Expr.call · []) (hname before hself).1

/-- A call that is a statement is one line. -/
theorem LowersKind.call {self : Option String} {callee : Python.Expr}
    (h : LowersKind names self (.expr (.call callee [])) lines) :
    ∃ lowered, LowersExpr names self (.call callee []) lowered ∧ lines = [.expr lowered] := by
  obtain ⟨before, after, hself, hrun⟩ := h
  have hlines : [.expr (lowerExpr names (.call callee []) before).1] = lines :=
    congrArg Prod.fst (Except.ok.inj hrun)
  exact ⟨_, ⟨before, hself, rfl⟩, hlines.symm⟩

theorem lowersCaught_name {body : List Python.Stmt} {span : Python.Span} {caught : CSharp.Caught}
    (h : LowersCaught names none ⟨[.name id], none, body, span⟩ caught) :
    caught = .one (.name (CSharp.escapeIdentifier id)) none := by
  obtain ⟨before, hself, rfl⟩ := h
  have hname : Yields none (lowerName id) _ := .lowerName id
  exact congrArg (CSharp.Caught.one · none) (hname before hself).1

theorem emits_of_singleton {stmt : Python.Stmt} (h : S.EmitsBlock own mark [stmt] lines) :
    S.Emits own mark stmt.kind lines := by
  cases h with
  | cons hs hr =>
    cases hr
    rwa [List.append_nil]

theorem emits_call (hself : S.self = none)
    (h : S.Emits own mark (.expr (.call (.name id) [])) lines) :
    lines = [.expr (called (CSharp.escapeIdentifier id))] := by
  cases h with
  | simple _ _ _ hl _ =>
    obtain ⟨lowered, hlowered, rfl⟩ := LowersKind.call hl
    rw [hself] at hlowered
    rw [lowersExpr_call hlowered]

theorem emits_endedBreak {name : String} (hself : S.self = none)
    (h : S.Emits own (some name) endedBreak.kind lines) :
    ∃ inner ∈ S.flags, lines = endedLines name inner := by
  cases h with
  | simple _ hk => cases hk
  | tryBlock _ _ hd hb hh hf he =>
    cases he
    cases hh
    cases hf with
    | some hf =>
      cases emits_call hself (emits_of_singleton hf)
      cases emits_of_singleton hb with
      | simple _ hk => cases hk
      | breakMarked => exact ⟨_, hd, rfl⟩

theorem emits_replacingLoop (hself : S.self = none)
    (h : S.EmitsBlock own mark [replacingLoop] lines) :
    ∃ name, ∃ outer ∈ S.flags, ∃ inner ∈ S.flags, lines = replacingLines name outer inner := by
  cases emits_of_singleton h with
  | simple _ hk => cases hk
  | whileElse _ _ hl hb ho =>
    cases lowersExpr_call (hself ▸ hl)
    cases emits_call hself (emits_of_singleton ho)
    cases emits_of_singleton hb with
    | simple _ hk => cases hk
    | tryBlock _ _ hd htry hh hf he =>
      cases hf
      cases he
      obtain ⟨inner, hinner, rfl⟩ := emits_endedBreak hself (emits_of_singleton htry)
      cases hh with
      | cons hc hbody hrest =>
        cases hrest
        cases lowersCaught_name (hself ▸ hc)
        cases emits_of_singleton hbody with
        | simple _ hk => cases hk
        | continue_ => exact ⟨_, _, hd, inner, hinner, rfl⟩

theorem replacingLoop_builds : tryFragment.Builds replacingLoop.kind := by
  have hcall (id : String) : tryFragment.Builds (.expr (.call (.name id) [])) := .simple rfl
  have hended : tryFragment.Builds endedBreak.kind := by
    refine .tryBlock trivial (List.forall_mem_singleton.2 .break_) nofun nofun ?_
    rintro block ⟨⟩
    exact List.forall_mem_singleton.2 (hcall "fail")
  have hreplaced : tryFragment.Builds replacedBreak.kind :=
    .tryBlock trivial (List.forall_mem_singleton.2 hended)
      (List.forall_mem_singleton.2 (List.forall_mem_singleton.2 .continue_)) nofun nofun
  refine .whileLoop trivial (List.forall_mem_singleton.2 hreplaced) ?_
  rintro block ⟨⟩
  exact List.forall_mem_singleton.2 (hcall "done")

end Lines

/-! ## The run of the code -/

variable {m : Machine} {fault : m.Fault}

/-- What a machine does in one time around the loop: `fail` raises behind the `break`, the exception
is caught, and the test ends the loop. -/
structure Replaces (m : Machine) (fault : m.Fault) (s s₁ s₂ s₃ s₄ : m.State) : Prop where
  enters : m.tests (called "more") s (.ok true) s₁
  raises : m.runs (.expr (called "fail")) s₁ (some fault) s₂
  catches : m.catches (.one (.name "Failure") none) fault s₂ = some s₃
  ends : m.tests (called "more") s₃ (.ok false) s₄

/-- What can be seen of it. -/
def replacingTrace (fault : m.Fault) : List (Event m) :=
  [.tested (called "more") (.ok true), .ran (.expr (called "fail")) (some fault),
    .tested (called "more") (.ok false)]

theorem exec_endedLines {mark inner : String} {flags : Flags} {s s' : m.State}
    (hmark : (flags mark).isSome = true) (hinner : (flags inner).isSome = true)
    (h : m.runs (.expr (called "fail")) s (some fault) s') :
    Exec m (.block (endedLines mark inner)) ⟨s, flags⟩ [.ran (.expr (called "fail")) (some fault)]
      (.raised fault) ⟨s', (flags.set inner false).set mark false⟩ := by
  have hbreak : Exec m (.block [setMark mark false, .break_, setMark inner true])
      ⟨s, flags.set inner false⟩ [] .broke ⟨s, (flags.set inner false).set mark false⟩ :=
    .cons (exec_setMark s (flags.isSome_set false hmark) false)
      (.stop (.break_ _) fun h => nomatch h)
  have hcall : Exec m (.stmt (.expr (called "fail"))) ⟨s, (flags.set inner false).set mark false⟩
      [.ran (.expr (called "fail")) (some fault)] (.raised fault)
        ⟨s', (flags.set inner false).set mark false⟩ :=
    .lineRaises rfl (fun _ h => nomatch h) h
  -- the exception takes the place of the `break`
  have hfinish := Exec.cleanup (o := .broke) (fun h => nomatch h) hcall.singleton
  exact .cons (exec_setMark s hinner false)
    (Exec.tryCatch hbreak (.passes _ fun _ h => nomatch h) hfinish).singleton

/-- The `break` has cleared the mark, and nothing sets it again. -/
theorem exec_replacingLines {mark outer inner : String} {c : Config m} {s₁ s₂ s₃ s₄ : m.State}
    (houter : (c.flags outer).isSome = true) (hinner : (c.flags inner).isSome = true)
    (h : Replaces m fault c.state s₁ s₂ s₃ s₄) :
    ∃ c', Exec m (.block (replacingLines mark outer inner)) c
      (replacingTrace fault) .normal c' := by
  let started := c.flags.set mark true
  let entered := started.set outer false
  let broken := (entered.set inner false).set mark false
  have hmark : (started mark).isSome = true :=
    Option.isSome_iff_exists.2 ⟨true, c.flags.set_self mark true⟩
  have hended : Exec m (.block (endedLines mark inner)) ⟨s₁, entered⟩
      [.ran (.expr (called "fail")) (some fault)] (.raised fault) ⟨s₂, broken⟩ :=
    exec_endedLines (started.isSome_set false hmark)
      (started.isSome_set false (c.flags.isSome_set true hinner)) h.raises
  have hcaught : Exec m (.handle [⟨.one (.name "Failure") none, [.continue_]⟩] (.raised fault))
      ⟨s₂, broken⟩ [] .continued ⟨s₃, broken⟩ :=
    .caught h.catches (Exec.continue_ _).singleton
  have hround : Exec m (.block (replacedLines mark outer inner)) ⟨s₁, started⟩
      [.ran (.expr (called "fail")) (some fault)] .continued ⟨s₃, broken⟩ :=
    .cons (exec_setMark s₁ (c.flags.isSome_set true houter) false)
      (Exec.tryCatch (hended.append_left fun h => nomatch h) hcaught (.noCleanup _ _)).singleton
  have htest {s s' : m.State} {flags : Flags} {result : Except m.Fault Bool}
      (h : m.tests (called "more") s result s') :
      Tests m (called "more") ⟨s, flags⟩ [.tested (called "more") result] result s' :=
    .other (fun _ h => nomatch h) h
  have hloop : Exec m (.loop (called "more") (replacedLines mark outer inner)) ⟨c.state, started⟩
      (replacingTrace fault) .normal ⟨s₄, broken⟩ :=
    .loopNext (htest h.enters) hround rfl (.loopEnds (htest h.ends))
  have hskipped : Exec m (.stmt (guarded (.name mark) [.expr (called "done")])) ⟨s₄, broken⟩
      [] .normal ⟨s₄, broken⟩ :=
    Exec.guard_skipped (.flag (Store.set_self _ mark false))
  exact ⟨_, .cons (.flag mark true c) (.cons (.whileLoop hloop) hskipped.singleton)⟩

/-! ## The runs of the source -/

/-- Some line has run to its end. -/
def Progress (tr : List (Event m)) : Prop :=
  ∃ line, .ran line none ∈ tr

theorem progress_append {first rest : List (Event m)} :
    Progress (first ++ rest) ↔ Progress first ∨ Progress rest := by
  simp only [Progress, List.mem_append, exists_or]

section Strict

variable {S : Body} {s s' : m.State} {tr : List (Event m)} {o : Outcome m.Fault}
  {callee : Python.Expr} {span : Python.Span}

/-- The line of a call runs to its end or raises. -/
theorem call_cases (h : Runs (S.source m).strict (.block [⟨.expr (.call callee []), span⟩]) s tr o
    s') (ho : o ≠ .cut) : Progress tr ∨ ∃ fault, o = .raised fault := by
  cases h.of_singleton ho with
  | simple _ h =>
    obtain ⟨_, hlines, -, hexec⟩ := h
    obtain ⟨lowered, -, rfl⟩ := LowersKind.call hlines
    cases hexec.of_singleton with
    | cut => exact absurd rfl ho
    | line => exact .inl ⟨_, List.mem_singleton_self _⟩
    | lineRaises => exact .inr ⟨_, rfl⟩
  | _ => exact absurd rfl ho

theorem finally_call_cases {before : Outcome m.Fault}
    (h : Runs (S.source m).strict
      (.finish (some [⟨.expr (.call callee []), span⟩]) before) s tr o s')
    (ho : o ≠ .cut) : Progress tr ∨ ∃ fault, o = .raised fault := by
  cases h with
  | @finally_ _ _ o₁ _ _ _ _ hb =>
    have hcut : o₁ ≠ .cut := by
      rintro rfl
      exact ho rfl
    obtain hran | ⟨fault, rfl⟩ := call_cases hb hcut
    · exact .inl hran
    · exact .inr ⟨fault, rfl⟩
  | _ => exact absurd rfl ho

/-- The `break` has an effect only if the call behind it runs to its end. -/
theorem endedBreak_cases (h : Runs (S.source m).strict (.block [endedBreak]) s tr o s')
    (ho : o ≠ .cut) : Progress tr ∨ ∃ fault, o = .raised fault := by
  cases h.of_singleton ho with
  | tryElse _ hf _ =>
    obtain hran | ⟨fault, hraised⟩ := finally_call_cases hf nofun
    · exact .inl (progress_append.2 (.inr (progress_append.2 (.inl hran))))
    · cases hraised
  | tryDone _ _ hf _ =>
    obtain hran | hraised := finally_call_cases hf ho
    · exact .inl (progress_append.2 (.inr (progress_append.2 (.inr hran))))
    · exact .inr hraised
  | simple hk => cases hk
  | _ => exact absurd rfl ho

theorem progress_of_broke (h : Runs (S.source m).strict (.block [replacedBreak]) s tr .broke s') :
    Progress tr := by
  cases h.of_singleton nofun with
  | tryElse _ _ he => cases he
  | tryDone hb hh hf _ =>
    cases hf with
    | noFinally =>
      cases hh with
      | passes =>
        obtain hran | ⟨fault, hraised⟩ := endedBreak_cases hb nofun
        · exact progress_append.2 (.inl hran)
        · cases hraised
      | caught _ hb =>
        cases hb.of_singleton nofun with
        | simple hk => cases hk
      | missed _ hr => cases hr
  | simple hk => cases hk

/-- So the loop is left by `break` only if a line has run to its end. -/
theorem progress_of_loop_broke {code : Python.Code (S.source m).strict}
    (h : Runs (S.source m).strict code s tr o s')
    (hcode : code = .loop (.call (.name "more") []) [replacedBreak]) (ho : o = .broke) :
    Progress tr := by
  induction h with
  | loopNext _ _ _ _ _ ih =>
    cases hcode
    exact progress_append.2 (.inr (progress_append.2 (.inr (ih rfl ho))))
  | loopStops _ hb _ =>
    cases hcode
    subst ho
    exact progress_append.2 (.inr (progress_of_broke hb))
  | cut | cutEnd | loopEnds | loopRaises => cases ho
  | _ => cases hcode

/-- If the test ends the loop, the `else` runs to its end. -/
theorem progress_of_replacingLoop (h : Runs (S.source m).strict (.block [replacingLoop]) s tr o s')
    (ho : o = .normal) : Progress tr := by
  have hcut : o ≠ .cut := by
    rw [ho]
    exact nofun
  cases h.of_singleton hcut with
  | simple hk => cases hk
  | whileElse _ he =>
    obtain hran | ⟨fault, rfl⟩ := call_cases he hcut
    · exact progress_append.2 (.inr hran)
    · cases ho
  | whileSkipped hw => cases hw
  | @whileLeft _ _ _ _ _ _ o h hne =>
    cases o with
    | broke => exact progress_of_loop_broke h rfl rfl
    | normal => exact absurd rfl hne
    | _ => cases ho
  | _ => exact absurd rfl hcut

end Strict

/-- On every machine on which `fail` raises behind the `break`, the exception is caught in the loop,
and the test then ends the loop, the code for the loop runs to its end without its `else`. Under the
strict meaning, no run of the loop to its end looks like this. -/
theorem else_skipped_behind_replaced_break (options : Options) :
    ∃ (file : CSharp.File) (diagnostics : List Diagnostic),
      lower options ⟨[replacingLoop]⟩ =
        .ok ⟨Layout.printAll options.indentWidth 0 file.layout, diagnostics⟩ ∧
      ∀ {m : Machine} {c : Config m} {fault : m.Fault} {s₁ s₂ s₃ s₄ : m.State},
        (∀ x, (c.flags x).isSome = true ↔ x ∈ file.flags) → Replaces m fault c.state s₁ s₂ s₃ s₄ →
        (∃ c', Exec m (.block file.body) c (replacingTrace fault) .normal c') ∧
        ∀ (S : Body) (s' : m.State),
          ¬ Runs (S.source m).strict (.block [replacingLoop]) c.state
            (replacingTrace fault) .normal s' := by
  let source : Python.Module := ⟨[replacingLoop]⟩
  have hbuilds : ∀ s ∈ source.body, tryFragment.Builds s.kind :=
    List.forall_mem_singleton.2 replacingLoop_builds
  obtain ⟨file, after, hrun, own, hemits, -, -⟩ :=
    Body.module_emitted (fun _ hk => hk) options.library hbuilds
  obtain ⟨mark, outer, houter, inner, hinner, hlines⟩ := emits_replacingLoop rfl hemits
  refine ⟨file, after.diagnostics, lower_run hrun, fun {m c fault s₁ s₂ s₃ s₄} hflags h => ⟨?_, ?_⟩⟩
  · rw [hlines]
    exact exec_replacingLines ((hflags outer).2 houter) ((hflags inner).2 hinner) h
  · intro S s' hstrict
    obtain ⟨line, hline⟩ := progress_of_replacingLoop hstrict rfl
    simp [replacingTrace] at hline

end Lowering

end PythonToCSharp
