import PythonToCSharp.Proofs.Execution.Emitted
import PythonToCSharp.Proofs.Execution.Marks

/-!
The `else` of a `try` is entered when it should be.

Whatever simple statements, conditions and clauses do, every run of the emitted lines is a run of
the source: the same lines run and the same conditions are tested in the same order, with the same
end. In the rules of the source an `else` is entered exactly when, in this entry of its `try`, the
body ran to its end and so did the `finally`.
-/

namespace PythonToCSharp.Lowering

open CSharp (Machine Config Event Exec Tests)
open Python (Runs)

namespace Body

variable {S : Body} {m : Machine}

/-- What the source means with the simple statements, conditions and clauses of a machine. A
condition may be spelled like a hidden name and reads that then. Whether the `else` of a `while`
runs is left open: an exception may take the place of a `break` that has cleared the mark, and the
code skips the `else` then. -/
def source (S : Body) (m : Machine) : Python.Meaning where
  State := m.State
  Value := m.Value
  Fault := m.Fault
  Event := Event m
  simple kind s tr o s' := ∃ lines, LowersKind S.names S.self kind lines ∧
    (∀ line ∈ lines, line.isLine = true) ∧ Exec m (.block lines) ⟨s, fun _ => none⟩ tr o
      ⟨s', fun _ => none⟩
  test e s tr result s' := ∃ flags lowered, (∀ x, (flags x).isSome = true → S.Hidden x) ∧
    LowersExpr S.names S.self e lowered ∧ Tests m lowered ⟨s, flags⟩ tr result s'
  elements _ _ _ _ := False
  bind _ _ _ _ := False
  takes handler fault s result := ∃ caught, LowersCaught S.names S.self handler caught ∧
    m.catches caught fault s = result
  whileElseOpen := True

/-- Every run of the code is one of the source, and keeps the truth values that are not its own. -/
def Follows (S : Body) (m : Machine) (own : String → Prop) (mark : Option String)
    (code : CSharp.Code m) (source : Python.Code (S.source m)) : Prop :=
  ∀ {state flags tr o c'}, S.Clear own mark flags → Exec m code ⟨state, flags⟩ tr o c' →
    Runs (S.source m) source state tr o c'.state ∧ Keeps False own mark flags o c'.flags

variable {own inner : String → Prop} {mark : Option String}

/-! ## Single statements -/

theorem exec_lines {lines : Block} (hh : S.Harmless lines) {c c' : Config m} {tr : List (Event m)}
    {o : Outcome m.Fault} (hu : ∀ x, S.User x → c.flags x = none)
    (h : Exec m (.block lines) c tr o c') : c'.flags = c.flags ∧ o ≠ .broke ∧
      Exec m (.block lines) ⟨c.state, fun _ => none⟩ tr o ⟨c'.state, fun _ => none⟩ := by
  induction lines generalizing c tr with
  | nil =>
    cases h
    exact ⟨rfl, nofun, .nil _⟩
  | cons line rest ih =>
    obtain ⟨hline, hrest⟩ := List.forall_mem_cons.1 hh
    have hn : ∀ name value, line = .assign (.name name) (.ofBool value) → c.flags name = none :=
      fun name value heq => hu name (hline.2 name value heq)
    rcases h.cons_cases with ⟨tr₁, c₀, tr₂, hs, hr, rfl⟩ | ⟨hs, ho⟩
    · obtain ⟨hf, -, hs'⟩ := hs.of_line hline.1 hn
      obtain ⟨hf', ho, hr'⟩ := ih hrest (by rwa [hf]) hr
      exact ⟨hf'.trans hf, ho, .cons hs' hr'⟩
    · obtain ⟨hf, hb, hs'⟩ := hs.of_line hline.1 hn
      exact ⟨hf, hb, .stop hs' ho⟩

theorem follows_simple {kind : Python.StmtKind} {lines : Block} (hk : kind.isSimple = true)
    (hl : LowersKind S.names S.self kind lines) (hh : S.Harmless lines) :
    S.Follows m own mark (.block lines) (.stmt kind) := by
  intro state flags tr o c' hc h
  obtain ⟨hf, ho, hrun⟩ := exec_lines hh (fun _ => hc.user) h
  refine ⟨.simple hk ⟨lines, hl, fun line hm => (hh line hm).1, hrun⟩, ?_⟩
  rw [hf]
  exact .refl ho

theorem follows_break : S.Follows m own none (.block [.break_]) (.stmt .breakStmt) := by
  intro state flags tr o c' _ h
  obtain ⟨rfl, rfl, rfl | rfl⟩ := h.of_singleton.break_cases
  · exact ⟨.break_ _, .refl_unmarked⟩
  · exact ⟨.cut _ _, .refl_unmarked⟩

theorem follows_breakMarked (name : String) :
    S.Follows m own (some name) (.block [setMark name false, .break_]) (.stmt .breakStmt) := by
  intro state flags tr o c' hc h
  have hd := hc.marked name rfl
  rcases h.cons_cases with ⟨tr₁, c₀, tr₂, hs, hr, rfl⟩ | ⟨hs, ho⟩
  · obtain ⟨rfl, ⟨-, rfl⟩ | ⟨ho, -⟩⟩ := hs.setFlag_cases hd
    · obtain ⟨rfl, rfl, rfl | rfl⟩ := hr.of_singleton.break_cases
      · exact ⟨.break_ _, .clear name fun _ => rfl⟩
      · exact ⟨.cut _ _, .clear name nofun⟩
    · cases ho
  · obtain ⟨rfl, ⟨rfl, -⟩ | ⟨rfl, rfl⟩⟩ := hs.setFlag_cases hd
    · exact absurd rfl ho
    · exact ⟨.cut _ _, .refl nofun⟩

theorem follows_continue : S.Follows m own mark (.block [.continue_]) (.stmt .continueStmt) := by
  intro state flags tr o c' _ h
  obtain ⟨rfl, rfl, rfl | rfl⟩ := h.of_singleton.continue_cases
  · exact ⟨.continue_ _, .refl nofun⟩
  · exact ⟨.cut _ _, .refl nofun⟩

/-! ## Blocks and conditions -/

theorem follows_nil : S.Follows m own mark (.block []) (.block []) := by
  intro state flags tr o c' _ h
  cases h
  exact ⟨.nil _, .refl nofun⟩

theorem follows_cons {stmt : Python.Stmt} {rest : List Python.Stmt} {first rest' : Block}
    (hs : S.Follows m own mark (.block first) (.stmt stmt.kind))
    (hr : S.Follows m own mark (.block rest') (.block rest)) :
    S.Follows m own mark (.block (first ++ rest')) (.block (stmt :: rest)) := by
  intro state flags tr o c' hc h
  rcases h.append_cases with ⟨tr₁, c₀, tr₂, hx, hy, rfl⟩ | ⟨hx, ho⟩
  · obtain ⟨hrun, hk⟩ := hs hc hx
    obtain ⟨hrun', hk'⟩ := hr (hc.keeps hk) hy
    exact ⟨.cons hrun hrun', hk.trans nofun hk'⟩
  · obtain ⟨hrun, hk⟩ := hs hc hx
    exact ⟨.stop hrun ho, hk⟩

theorem follows_noElse : S.Follows m own mark (.branches [] none) (.branches [] none) := by
  intro state flags tr o c' _ h
  cases h
  exact ⟨.noElse _, .refl nofun⟩

theorem follows_else {body : List Python.Stmt} {body' : Block}
    (hb : S.Follows m own mark (.block body') (.block body)) :
    S.Follows m own mark (.branches [] (some body')) (.branches [] (some body)) := by
  intro state flags tr o c' hc h
  cases h with
  | otherwise h =>
    obtain ⟨hrun, hk⟩ := hb hc h
    exact ⟨.orelse hrun, hk⟩

theorem follows_branch {test : Python.Expr} {test' : CSharp.Expr} {body : List Python.Stmt}
    {body' : Block}
    {rest : List Python.Branch} {rest' : List CSharp.Branch} {orelse : Option (List Python.Stmt)}
    {orelse' : Option Block} (hl : LowersExpr S.names S.self test test')
    (hb : S.Follows m own mark (.block body') (.block body))
    (hr : S.Follows m own mark (.branches rest' orelse') (.branches rest orelse)) :
    S.Follows m own mark (.branches (⟨test', body'⟩ :: rest') orelse')
      (.branches (⟨test, body⟩ :: rest) orelse) := by
  intro state flags tr o c' hc h
  cases h with
  | taken ht h =>
    obtain ⟨hrun, hk⟩ := hb hc h
    exact ⟨.taken ⟨flags, test', hc.hidden, hl, ht⟩ hrun, hk⟩
  | skipped ht h =>
    obtain ⟨hrun, hk⟩ := hr hc h
    exact ⟨.skipped ⟨flags, test', hc.hidden, hl, ht⟩ hrun, hk⟩
  | branchRaises ht => exact ⟨.branchRaises ⟨flags, test', hc.hidden, hl, ht⟩, .refl nofun⟩

theorem follows_ifChain {branches : List Python.Branch} {branches' : List CSharp.Branch}
    {orelse : Option (List Python.Stmt)} {orelse' : Option Block}
    (hb : S.Follows m own mark (.branches branches' orelse') (.branches branches orelse)) :
    S.Follows m own mark (.block [.ifElse branches' orelse'])
      (.stmt (.ifChain branches orelse)) := by
  intro state flags tr o c' hc h
  cases h.of_singleton with
  | cut => exact ⟨.cut _ _, .refl nofun⟩
  | line hs => cases hs
  | lineRaises hs => cases hs
  | ifElse h =>
    obtain ⟨hrun, hk⟩ := hb hc h
    exact ⟨.ifChain hrun, hk⟩

/-! ## Loops -/

section

variable {test : Python.Expr} {test' : CSharp.Expr} {body : List Python.Stmt} {body' : Block}

/-- The iterations of a loop, one after the other. -/
theorem follows_loop (hl : LowersExpr S.names S.self test test')
    (hb : S.Follows m own mark (.block body') (.block body)) :
    S.Follows m own mark (.loop test' body') (.loop test body) := by
  -- the induction is on the run, whose code is this loop each time around
  have hloop : ∀ {code c tr o c'}, Exec m code c tr o c' → code = .loop test' body' →
      S.Clear own mark c.flags → Runs (S.source m) (.loop test body) c.state tr o c'.state ∧
        Keeps False own mark c.flags o c'.flags := by
    intro code c tr o c' h
    induction h with
    | cutLoop =>
      intro _ _
      exact ⟨.cut _ _, .refl nofun⟩
    | loopEnds ht =>
      rintro ⟨⟩ hc
      exact ⟨.loopEnds ⟨_, test', hc.hidden, hl, ht⟩, .refl nofun⟩
    | loopRaises ht =>
      rintro ⟨⟩ hc
      exact ⟨.loopRaises ⟨_, test', hc.hidden, hl, ht⟩, .refl nofun⟩
    | loopStops ht h ho =>
      rintro ⟨⟩ hc
      obtain ⟨hrun, hk⟩ := hb hc h
      exact ⟨.loopStops ⟨_, test', hc.hidden, hl, ht⟩ hrun ho, hk⟩
    | loopNext ht h ho _ _ ih =>
      rintro ⟨⟩ hc
      obtain ⟨hrun, hk⟩ := hb hc h
      obtain ⟨hrun', hk'⟩ := ih rfl (hc.keeps hk)
      exact ⟨.loopNext ⟨_, test', hc.hidden, hl, ht⟩ hrun ho hrun', hk.trans nofun hk'⟩
    | _ => exact nofun
  intro state flags tr o c' hc h
  exact hloop h rfl hc

theorem follows_while (hl : LowersExpr S.names S.self test test')
    (hb : S.Follows m own none (.block body') (.block body)) :
    S.Follows m own mark (.block [.whileLoop test' body']) (.stmt (.whileLoop test body none)) := by
  intro state flags tr o c' hc h
  cases h.of_singleton with
  | cut => exact ⟨.cut _ _, .refl nofun⟩
  | line hs => cases hs
  | lineRaises hs => cases hs
  | whileLoop h =>
    obtain ⟨hrun, hk⟩ := follows_loop hl hb hc.unmarked h
    exact ⟨.whileLoop hrun, hk.loop hc⟩

/-- Behind a loop that a `break` has left, the mark is cleared. -/
theorem follows_guardedLoop {name : String} {orelse : List Python.Stmt} {orelse' : Block}
    (hi : Inside own inner name) (hl : LowersExpr S.names S.self test test')
    (hb : S.Follows m inner (some name) (.block body') (.block body))
    (ho : S.Follows m inner mark (.block orelse') (.block orelse)) {c c' : Config m}
    {tr : List (Event m)}
    {o : Outcome m.Fault} (hc : S.Clear own mark c.flags) (hd : (c.flags name).isSome = true)
    (h : Exec m (.block [.whileLoop test' body', guarded (.name name) orelse']) c tr o c') :
    Runs (S.source m) (.stmt (.whileLoop test body (some orelse))) c.state tr o c'.state ∧
      Keeps False own mark c.flags o c'.flags := by
  have hloop {tr₁ : List (Event m)} {o₁ : Outcome m.Fault} {c₁ : Config m}
      (h : Exec m (.stmt (.whileLoop test' body')) c tr₁ o₁ c₁) :
      (o₁ = .cut ∧ c₁ = c ∧ tr₁ = []) ∨ ∃ o₂, o₁ = o₂.afterLoop ∧
        Runs (S.source m) (.loop test body) c.state tr₁ o₂ c₁.state ∧
        Keeps False inner (some name) c.flags o₂ c₁.flags := by
    cases h with
    | cut => exact .inl ⟨rfl, rfl, rfl⟩
    | line hs => cases hs
    | lineRaises hs => cases hs
    | whileLoop h => exact .inr ⟨_, rfl, follows_loop hl hb (hc.marking hi hd) h⟩
  rcases h.cons_cases with ⟨tr₁, c₁, tr₂, hs, hr, rfl⟩ | ⟨hs, hne⟩
  · rcases hloop hs with ⟨hcut, -⟩ | ⟨o₂, hnormal, hrun, hk⟩
    · cases hcut
    · have hk' := hk.loop_marked hi hc
      rw [← hnormal] at hk'
      -- without its `else` the statement would end here
      have hskip :
          Runs (S.source m) (.stmt (.whileLoop test body (some orelse))) c.state tr₁ .normal
          c₁.state := by
        cases o₂ with
        | normal => exact .whileSkipped trivial hrun
        | broke => exact .whileLeft hrun nofun
        | _ => cases hnormal
      obtain ⟨value, hvalue⟩ := Option.isSome_iff_exists.1 (hk'.known name hd)
      rcases hr.of_singleton.guard_cases (Tests.of_flag hvalue) with
        ⟨rfl, rfl, rfl⟩ | ⟨rfl, hr⟩ | ⟨-, rfl, rfl, rfl⟩
      · rw [List.append_nil]
        exact ⟨.cutEnd hskip, hk'.trans nofun (.refl nofun)⟩
      · cases o₂ with
        | normal =>
          obtain ⟨hrun', helse⟩ := ho ((hc.keeps hk').inside hi) hr
          exact ⟨.whileElse hrun hrun', hk'.trans nofun (helse.widen hi.within)⟩
        | broke =>
          -- a `break` has cleared the mark that was found set
          rw [hk.broken name rfl rfl] at hvalue
          cases hvalue
        | _ => cases hnormal
      · rw [List.append_nil]
        exact ⟨hskip, hk'⟩
  · rcases hloop hs with ⟨rfl, rfl, rfl⟩ | ⟨o₂, rfl, hrun, hk⟩
    · exact ⟨.cut _ _, .refl nofun⟩
    · refine ⟨.whileLeft hrun ?_, hk.loop_marked hi hc⟩
      rintro rfl
      exact hne rfl

theorem follows_whileElse {name : String} {orelse : List Python.Stmt} {orelse' : Block}
    (hi : Inside own inner name) (hl : LowersExpr S.names S.self test test')
    (hb : S.Follows m inner (some name) (.block body') (.block body))
    (ho : S.Follows m inner mark (.block orelse') (.block orelse)) :
    S.Follows m own mark
      (.block [.flag name true, .whileLoop test' body', guarded (.name name) orelse'])
      (.stmt (.whileLoop test body (some orelse))) := by
  intro state flags tr o c' hc h
  have hm := hc.mark_ne hi.owned
  rcases h.cons_cases with ⟨tr₁, c₁, tr₂, hs, hr, rfl⟩ | ⟨hs, hne⟩
  · obtain ⟨rfl, ⟨-, rfl⟩ | ⟨hcut, -⟩⟩ := hs.flag_cases
    · have hset : Keeps False own mark flags (.normal : Outcome m.Fault) (flags.set name true) :=
        .set hi.owned hm true nofun
      have hd : (flags.set name true name).isSome = true := by
        rw [flags.set_self]
        rfl
      obtain ⟨hrun, hk⟩ := follows_guardedLoop hi hl hb ho (hc.keeps hset) hd hr
      exact ⟨hrun, hset.trans nofun hk⟩
    · cases hcut
  · obtain ⟨rfl, ⟨rfl, -⟩ | ⟨rfl, rfl⟩⟩ := hs.flag_cases
    · exact absurd rfl hne
    · exact ⟨.cut _ _, .refl nofun⟩

end

/-! ## Exceptions -/

/-- Every run of what comes behind an end is one of the source, and what was kept up to that end is
kept on. -/
def Resumes (S : Body) (m : Machine) (own : String → Prop) (mark : Option String)
    (code : Outcome m.Fault → CSharp.Code m)
    (source : Outcome (S.source m).Fault → Python.Code (S.source m)) : Prop :=
  ∀ {state flags tr o o' c'}, S.Clear own mark flags → Exec m (code o) ⟨state, flags⟩ tr o' c' →
    Runs (S.source m) (source o) state tr o' c'.state ∧
      ∀ {before}, Keeps False own mark before o flags → Keeps False own mark before o' c'.flags

theorem resumes_noHandler : S.Resumes m own mark (.handle []) (.handle []) := by
  intro state flags tr o o' c' _ h
  cases h with
  | passes _ ho => exact ⟨.passes _ ho, id⟩
  | uncaught fault => exact ⟨Runs.uncaught (M := S.source m) fault state, id⟩

theorem resumes_handler {handler : Python.Handler} {caught : CSharp.Caught} {body' : Block}
    {rest : List Python.Handler} {rest' : List CSharp.Catch}
    (hl : LowersCaught S.names S.self handler caught)
    (hb : S.Follows m own mark (.block body') (.block handler.body))
    (hr : S.Resumes m own mark (.handle rest') (.handle rest)) :
    S.Resumes m own mark (.handle (⟨caught, body'⟩ :: rest')) (.handle (handler :: rest)) := by
  intro state flags tr o o' c' hc h
  cases h with
  | passes _ ho => exact ⟨.passes _ ho, id⟩
  | caught hcatch h =>
    obtain ⟨hrun, hk⟩ := hb hc h
    exact ⟨.caught ⟨caught, hl, hcatch⟩ hrun, fun hbefore => hbefore.trans nofun hk⟩
  | missed hcatch h =>
    obtain ⟨hrun, hk⟩ := hr hc h
    exact ⟨.missed ⟨caught, hl, hcatch⟩ hrun, hk⟩

theorem resumes_noFinally : S.Resumes m own mark (.finish none) (.finish none) := by
  intro state flags tr o o' c' _ h
  cases h
  exact ⟨.noFinally _ _, id⟩

theorem resumes_finally {body : List Python.Stmt} {body' : Block}
    (hb : S.Follows m own mark (.block body') (.block body)) :
    S.Resumes m own mark (.finish (some body')) (.finish (some body)) := by
  intro state flags tr o o' c' hc h
  cases h with
  | unfinished => exact ⟨.cut _ _, id⟩
  | cleanup ho h =>
    obtain ⟨hrun, hk⟩ := hb hc h
    exact ⟨.finally_ ho hrun, fun hbefore => hbefore.followed nofun hk⟩

section

variable {body : List Python.Stmt} {body' : Block} {handlers : List Python.Handler}
  {catches : List CSharp.Catch} {finalbody orelse : Option (List Python.Stmt)}
    {cleanup orelse' : Option Block}
  {name : String}

/-- The flag is set behind the body, and only there. -/
theorem follows_flagged (hi : Inside own inner name)
    (hb : S.Follows m inner mark (.block body') (.block body)) {c c₁ : Config m}
    {tr : List (Event m)}
    {o : Outcome m.Fault} (hc : S.Clear own mark c.flags) (hfalse : c.flags name = some false)
    (h : Exec m (.block (body' ++ [setMark name true])) c tr o c₁) :
    Runs (S.source m) (.block body) c.state tr o c₁.state ∧
      ((o = .normal ∧ Keeps False own mark c.flags o c₁.flags ∧ c₁.flags name = some true) ∨
        (o ≠ .normal ∧ Keeps False inner mark c.flags o c₁.flags)) := by
  have hm := hc.mark_ne hi.owned
  rcases h.append_cases with ⟨tr₁, c₀, tr₂, hx, hy, rfl⟩ | ⟨hx, ho⟩
  · obtain ⟨hrun, hk⟩ := hb (hc.inside hi) hx
    have hd : (c₀.flags name).isSome = true := by
      rw [hk.others name hi.apart hm, hfalse]
      rfl
    obtain ⟨rfl, ⟨rfl, rfl⟩ | ⟨rfl, rfl⟩⟩ := hy.of_singleton.setFlag_cases hd
    · rw [List.append_nil]
      have hset :
          Keeps False own mark c₀.flags (.normal : Outcome m.Fault) (c₀.flags.set name true) :=
        .set hi.owned hm true nofun
      exact ⟨hrun, .inl ⟨rfl, (hk.widen hi.within).trans nofun hset, c₀.flags.set_self name true⟩⟩
    · rw [List.append_nil]
      exact ⟨.cutEnd hrun, .inr ⟨nofun, hk.trans nofun (.refl nofun)⟩⟩
  · obtain ⟨hrun, hk⟩ := hb (hc.inside hi) hx
    exact ⟨hrun, .inr ⟨ho, hk⟩⟩

/-- Behind a `try` the flag says whether its body ran to its end. -/
theorem follows_tryCatch (hi : Inside own inner name)
    (hb : S.Follows m inner mark (.block body') (.block body))
    (hh : S.Resumes m inner mark (.handle catches) (.handle handlers))
    (hf : S.Resumes m inner mark (.finish cleanup) (.finish finalbody)) {c c₁ : Config m}
    {tr : List (Event m)} {o : Outcome m.Fault} (hc : S.Clear own mark c.flags)
    (hfalse : c.flags name = some false)
    (h : Exec m (.stmt (.tryCatch (body' ++ [setMark name true]) catches cleanup)) c tr o c₁) :
    Keeps False own mark c.flags o c₁.flags ∧
      ((∃ tr₁ s₁ tr₂, tr = tr₁ ++ tr₂ ∧ Runs (S.source m) (.block body) c.state tr₁ .normal s₁ ∧
        Runs (S.source m) (.finish finalbody .normal) s₁ tr₂ o c₁.state ∧
          c₁.flags name = some true) ∨
      ((∀ orelse, Runs (S.source m) (.stmt (.tryBlock body handlers orelse finalbody)) c.state tr o
        c₁.state) ∧ c₁.flags name = some false)) := by
  have hm := hc.mark_ne hi.owned
  cases h with
  | cut => exact ⟨.refl nofun, .inr ⟨fun _ => .cut _ _, hfalse⟩⟩
  | line hs => cases hs
  | lineRaises hs => cases hs
  | tryCatch hx hy hz =>
    obtain ⟨hrun₁, ⟨rfl, hk₁, htrue⟩ | ⟨ho, hk₁⟩⟩ := follows_flagged hi hb hc hfalse hx
    · -- no clause is looked at, and the cleanup leaves the flag alone
      cases hy
      obtain ⟨hrun₃, hk₃⟩ := hf ((hc.keeps hk₁).inside hi) hz
      have hkept := hk₃ (.refl nofun)
      refine ⟨hk₁.trans nofun (hkept.widen hi.within), .inl ⟨_, _, _, rfl, hrun₁, hrun₃, ?_⟩⟩
      exact (hkept.others name hi.apart hm).trans htrue
    · have hinner := hc.inside hi
      obtain ⟨hrun₂, hk₂⟩ := hh (hinner.keeps hk₁) hy
      obtain ⟨hrun₃, hk₃⟩ := hf (hinner.keeps (hk₂ hk₁)) hz
      have hkept := hk₃ (hk₂ hk₁)
      refine ⟨hkept.widen hi.within, .inr ⟨fun _ => .tryDone hrun₁ hrun₂ hrun₃ (.inl ho), ?_⟩⟩
      exact (hkept.others name hi.apart hm).trans hfalse

/-- An `else` that may be missing, under the flag. -/
theorem exec_guarded {value : Bool} {c c' : Config m} {tr : List (Event m)} {o : Outcome m.Fault}
    (hv : c.flags name = some value)
    (h : Exec m (.block (orelse'.map (guarded (.name name))).toList) c tr o c') :
    (o = .cut ∧ tr = [] ∧ c' = c) ∨ (value = true ∧ Exec m (.branches [] orelse') c tr o c') ∨
      (value = false ∧ o = .normal ∧ tr = [] ∧ c' = c) := by
  cases orelse' with
  | none =>
    cases h
    cases value with
    | true => exact .inr (.inl ⟨rfl, .noBranch _⟩)
    | false => exact .inr (.inr ⟨rfl, rfl, rfl, rfl⟩)
  | some lines =>
    rcases Exec.guard_cases (Tests.of_flag hv) (Exec.of_singleton h) with hcut | ⟨htrue, hr⟩ | hskip
    · exact .inl hcut
    · exact .inr (.inl ⟨htrue, .otherwise hr⟩)
    · exact .inr (.inr hskip)

/-- The flag is cleared before the `try`, so that it tells of this entry of the `try` only. -/
theorem follows_try (hi : Inside own inner name) (hd : name ∈ S.flags)
    (hb : S.Follows m inner mark (.block body') (.block body))
    (hh : S.Resumes m inner mark (.handle catches) (.handle handlers))
    (hf : S.Resumes m inner mark (.finish cleanup) (.finish finalbody))
    (he : S.Follows m inner mark (.branches [] orelse') (.branches [] orelse)) :
    S.Follows m own mark
      (.block (setMark name false :: .tryCatch (body' ++ [setMark name true]) catches cleanup ::
        (orelse'.map (guarded (.name name))).toList))
      (.stmt (.tryBlock body handlers orelse finalbody)) := by
  intro state flags tr o c' hc h
  rcases h.cons_cases with ⟨tr₁, c₁, tr₂, hs, hr, rfl⟩ | ⟨hs, hne⟩
  · obtain ⟨rfl, ⟨-, rfl⟩ | ⟨hcut, -⟩⟩ := hs.setFlag_cases (hc.declared name hd)
    · have hset : Keeps False own mark flags (.normal : Outcome m.Fault) (flags.set name false) :=
        .set hi.owned (hc.mark_ne hi.owned) false nofun
      have hc₁ := hc.keeps hset
      have hfalse := flags.set_self name false
      rw [List.nil_append]
      rcases hr.cons_cases with ⟨tr₃, c₂, tr₄, ht, hg, rfl⟩ | ⟨ht, ho⟩
      · obtain ⟨hk, ⟨tr₅, s₁, tr₆, rfl, hrun, hfin, htrue⟩ | ⟨hrun, hflag⟩⟩ :=
          follows_tryCatch hi hb hh hf hc₁ hfalse ht
        · have hk' := hset.trans nofun hk
          rw [List.append_assoc]
          rcases exec_guarded htrue hg with ⟨rfl, rfl, rfl⟩ | ⟨-, hg⟩ | ⟨hv, -⟩
          · exact ⟨.tryElse hrun hfin (.cut _ _), hk'.trans nofun (.refl nofun)⟩
          · obtain ⟨hrun', helse⟩ := he ((hc.keeps hk').inside hi) hg
            exact ⟨.tryElse hrun hfin hrun', hk'.trans nofun (helse.widen hi.within)⟩
          · cases hv
        · have hk' := hset.trans nofun hk
          rcases exec_guarded hflag hg with ⟨rfl, rfl, rfl⟩ | ⟨hv, -⟩ | ⟨-, rfl, rfl, rfl⟩
          · rw [List.append_nil]
            exact ⟨.cutEnd (hrun orelse), hk'.trans nofun (.refl nofun)⟩
          · cases hv
          · rw [List.append_nil]
            exact ⟨hrun orelse, hk'⟩
      · obtain ⟨hk, ⟨tr₅, s₁, tr₆, rfl, hrun, hfin, -⟩ | ⟨hrun, -⟩⟩ :=
          follows_tryCatch hi hb hh hf hc₁ hfalse ht
        · exact ⟨.tryDone hrun (.passes s₁ nofun) hfin (.inr ho), hset.trans nofun hk⟩
        · exact ⟨hrun orelse, hset.trans nofun hk⟩
    · cases hcut
  · obtain ⟨rfl, ⟨rfl, -⟩ | ⟨rfl, rfl⟩⟩ := hs.setFlag_cases (hc.declared name hd)
    · exact absurd rfl hne
    · exact ⟨.cut _ _, .refl nofun⟩

end

/-! ## Whole bodies -/

/-- There is no `for` in the body. -/
def NoFor (S : Body) : Prop :=
  ∀ target iter, ¬S.fragment.loop target iter

mutual

theorem follows_stmt (hn : S.NoFor) {own : String → Prop} {mark : Option String}
    {kind : Python.StmtKind}
    {lines : Block} (h : S.Emits own mark kind lines) :
    S.Follows m own mark (.block lines) (.stmt kind) :=
  match h with
  | .simple _ hk _ hl hh => follows_simple hk hl hh
  | .break_ => follows_break
  | .breakMarked name => follows_breakMarked name
  | .continue_ => follows_continue
  | .ifChain hb ho => follows_ifChain (follows_branches hn hb (follows_orelse hn ho))
  | .whileLoop _ hl hb => follows_while hl (follows_block hn hb)
  | .whileElse hi _ hl hb ho => follows_whileElse hi hl (follows_block hn hb) (follows_block hn ho)
  | .forLoop _ hf _ _ _ _ => absurd hf (hn _ _)
  | .forElse _ _ hf _ _ _ _ _ => absurd hf (hn _ _)
  | .tryBlock _ hi hd hb hh hf ho =>
    follows_try hi hd (follows_block hn hb) (resumes_handlers hn hh) (resumes_finish hn hf)
      (follows_orelse hn ho)

theorem follows_block (hn : S.NoFor) {own : String → Prop} {mark : Option String}
    {body : List Python.Stmt}
    {lines : Block} (h : S.EmitsBlock own mark body lines) :
    S.Follows m own mark (.block lines) (.block body) :=
  match h with
  | .nil => follows_nil
  | .cons hs hr => follows_cons (follows_stmt hn hs) (follows_block hn hr)

theorem follows_branches (hn : S.NoFor) {own : String → Prop} {mark : Option String}
    {branches : List Python.Branch} {branches' : List CSharp.Branch}
    {orelse : Option (List Python.Stmt)} {orelse' : Option Block}
    (h : S.EmitsBranches own mark branches branches')
    (ho : S.Follows m own mark (.branches [] orelse') (.branches [] orelse)) :
    S.Follows m own mark (.branches branches' orelse') (.branches branches orelse) :=
  match h with
  | .nil => ho
  | .cons _ hl hb hr => follows_branch hl (follows_block hn hb) (follows_branches hn hr ho)

theorem follows_orelse (hn : S.NoFor) {own : String → Prop} {mark : Option String}
    {orelse : Option (List Python.Stmt)} {orelse' : Option Block}
    (h : S.EmitsOption own mark orelse orelse') :
    S.Follows m own mark (.branches [] orelse') (.branches [] orelse) :=
  match h with
  | .none => follows_noElse
  | .some hb => follows_else (follows_block hn hb)

theorem resumes_finish (hn : S.NoFor) {own : String → Prop} {mark : Option String}
    {finalbody : Option (List Python.Stmt)} {cleanup : Option Block}
    (h : S.EmitsOption own mark finalbody cleanup) :
    S.Resumes m own mark (.finish cleanup) (.finish finalbody) :=
  match h with
  | .none => resumes_noFinally
  | .some hb => resumes_finally (follows_block hn hb)

theorem resumes_handlers (hn : S.NoFor) {own : String → Prop} {mark : Option String}
    {handlers : List Python.Handler} {catches : List CSharp.Catch}
    (h : S.EmitsHandlers own mark handlers catches) :
    S.Resumes m own mark (.handle catches) (.handle handlers) :=
  match h with
  | .nil => resumes_noHandler
  | .cons hc hb hr => resumes_handler hc (follows_block hn hb) (resumes_handlers hn hr)

end

end Body

/-- Bodies of simple statements, `return` and `raise` among them, of `if`, `while`, `break` and
`continue`, and of `try` with all its parts. -/
def tryFragment : Fragment where
  simple kind := kind.isSimple = true
  test _ := True
  loop _ _ := False
  tries := True

/-- Every run of the lines is a run of the body, whatever the declared flags hold at first. -/
def Body.RunsAs (S : Body) (body : List Python.Stmt) (lines : Block) : Prop :=
  ∀ {m : Machine} {c c' : Config m} {tr : List (Event m)} {o : Outcome m.Fault},
    (∀ x, (c.flags x).isSome = true ↔ x ∈ S.flags) → Exec m (.block lines) c tr o c' →
      Runs (S.source m) (.block body) c.state tr o c'.state

theorem Body.Emitted.runsAs {S : Body} (hn : S.NoFor) {body : List Python.Stmt} {lines : Block}
    (h : S.Emitted body lines) : S.RunsAs body lines := by
  obtain ⟨own, hemits, hown, hflags⟩ := h
  intro m c c' tr o hd hrun
  exact (Body.follows_block hn hemits (.start hown hflags hd) hrun).1

/-- A `return` never ends like a body that runs to its end, so no `else` is entered behind it: it
leaves the body, or what it returns raises. -/
theorem Body.source_return_leaves {S : Body} {m : Machine} {value : Option Python.Expr}
    {s s' : m.State} {tr : List (Event m)} {o : Outcome m.Fault}
    (h : Runs (S.source m) (.stmt (.returnStmt value)) s tr o s') :
    o = .returned ∨ (∃ fault, o = .raised fault) ∨ o = .cut := by
  cases h with
  | cut => exact .inr (.inr rfl)
  | cutEnd => exact .inr (.inr rfl)
  | simple _ h =>
    obtain ⟨lines, ⟨before, after, -, hrun⟩, -, hexec⟩ := h
    have hlines : (lowerReturn S.names value before).1 = lines :=
      congrArg Prod.fst (Except.ok.inj hrun)
    obtain ⟨line, rfl, hline⟩ : ∃ line : CSharp.Stmt, lines = [line] ∧
        (line = .yieldBreak ∨ ∃ returned, line = .return_ returned) := by
      rw [← hlines]
      show ∃ line, ((if before.scopes.current.isGenerator then _ else _ : Render Block) before).1 =
        [line] ∧ _
      split
      · exact ⟨.yieldBreak, by cases value <;> rfl, .inl rfl⟩
      · exact ⟨_, rfl, .inr ⟨_, rfl⟩⟩
    rcases hline with rfl | ⟨returned, rfl⟩
    all_goals
      cases hexec.of_singleton with
      | cut => exact .inr (.inr rfl)
      | line => exact .inl rfl
      | lineRaises => exact .inr (.inl ⟨_, rfl⟩)

/-- In every run of the code for a body with `try` statements, an `else` is entered exactly when, in
this entry of its `try`, the body of the `try` ran to its end and so did the `finally`. It runs
behind them, and the clauses behind the body. The flags may hold any values at first. This holds of
modules, of functions and of the statements that set up a class, wherever they stand. -/
theorem try_else_entered_on_completion :
    (∀ (options : Options) (source : Python.Module),
      (∀ s ∈ source.body, tryFragment.Builds s.kind) →
      ∃ (file : CSharp.File) (diagnostics : List Diagnostic),
        lower options source = .ok ⟨Layout.printAll options.indentWidth 0 file.layout,
          diagnostics⟩ ∧
        Body.RunsAs ⟨options.library, none,
          Python.boundIn source.body ++ Python.globalsOf source.body,
          file.flags, tryFragment⟩ source.body file.body) ∧
    (∀ (names : LibraryNames) (definition : Python.FunctionDef) (before : State),
      (∀ s ∈ definition.body, tryFragment.Builds s.kind) →
      ∃ (function : CSharp.Function) (after : State) (self : Option String),
        lowerKind names (.functionDef definition) before = .ok ([.function function], after) ∧
        Body.RunsAs ⟨names, self, Python.boundIn definition.body, function.flags, tryFragment⟩
          definition.body function.body) ∧
    ∀ (names : LibraryNames) (definition : Python.ClassDef) (before : State),
      (∀ s ∈ definition.body, tryFragment.Builds s.kind) →
      ∃ (type : CSharp.Class) (after : State) (self : Option String) (lines : Block),
        lowerKind names (.classDef definition) before = .ok (lines, after) ∧
        (lines = [.type type] ∨ lines = [] ∧ type ∈ after.types) ∧
        Body.RunsAs ⟨names, self, Python.boundIn definition.body, type.flags, tryFragment⟩
          (Body.initialStatements definition.body) type.initializer := by
  refine ⟨?_, ?_, ?_⟩
  · intro options source hb
    obtain ⟨file, after, hrun, hemitted⟩ := Body.module_emitted (fun _ hk => hk) options.library hb
    exact ⟨file, after.diagnostics, lower_run hrun, hemitted.runsAs fun _ _ h => h⟩
  · intro names definition before hb
    obtain ⟨function, after, self, hrun, hemitted⟩ :=
      Body.function_emitted (fun _ hk => hk) names hb before
    exact ⟨function, after, self, hrun, hemitted.runsAs fun _ _ h => h⟩
  · intro names definition before hb
    obtain ⟨type, after, self, lines, hrun, hplace, hemitted⟩ :=
      Body.class_emitted (fun _ hk => hk) names hb before
    exact ⟨type, after, self, lines, hrun, hplace, hemitted.runsAs fun _ _ h => h⟩

/-- Tries again until there was no failure; `else` leaves the loop, behind `finally`. -/
def retryBody : List Python.Stmt :=
  [⟨.whileLoop (.name "more")
    [⟨.tryBlock [⟨.expr (.call (.name "work") []), ⟨3, 9⟩⟩]
        [⟨[.name "Failure"], none, [⟨.continueStmt, ⟨5, 9⟩⟩], ⟨4, 5⟩⟩]
        (some [⟨.breakStmt, ⟨7, 9⟩⟩]) (some [⟨.expr (.call (.name "rest") []), ⟨9, 9⟩⟩]), ⟨2, 5⟩⟩]
          none, ⟨1, 1⟩⟩]

theorem retryBody_else_entered :
    (∀ s ∈ retryBody, tryFragment.Builds s.kind) ∧
    (∃ (file : CSharp.File) (diagnostics : List Diagnostic),
      lower {} ⟨retryBody⟩ = .ok ⟨Layout.printAll 4 0 file.layout, diagnostics⟩ ∧
        Body.RunsAs ⟨{}, none, [], file.flags, tryFragment⟩ retryBody file.body) ∧
    (∃ (function : CSharp.Function) (after : State) (self : Option String),
      lowerKind {} (.functionDef ⟨"retry", [], none, retryBody, [], false⟩) {} =
          .ok ([.function function], after) ∧
        Body.RunsAs ⟨{}, self, [], function.flags, tryFragment⟩ retryBody function.body) ∧
    ∃ (type : CSharp.Class) (after : State) (self : Option String) (lines : Block),
      lowerKind {} (.classDef ⟨"Retry", [], retryBody, []⟩) {} = .ok (lines, after) ∧
        (lines = [.type type] ∨ lines = [] ∧ type ∈ after.types) ∧
        Body.RunsAs ⟨{}, self, [], type.flags, tryFragment⟩ retryBody type.initializer := by
  have hexpr (e : Python.Expr) : tryFragment.Builds (.expr e) := .simple rfl
  have htry : tryFragment.Builds (.tryBlock [⟨.expr (.call (.name "work") []), ⟨3, 9⟩⟩]
      [⟨[.name "Failure"], none, [⟨.continueStmt, ⟨5, 9⟩⟩], ⟨4, 5⟩⟩] (some [⟨.breakStmt, ⟨7, 9⟩⟩])
      (some [⟨.expr (.call (.name "rest") []), ⟨9, 9⟩⟩])) := by
    refine .tryBlock trivial (List.forall_mem_singleton.2 (hexpr _)) ?_ ?_ ?_
    · exact List.forall_mem_singleton.2 (List.forall_mem_singleton.2 .continue_)
    · rintro block ⟨⟩
      exact List.forall_mem_singleton.2 .break_
    · rintro block ⟨⟩
      exact List.forall_mem_singleton.2 (hexpr _)
  have hbuilds : ∀ s ∈ retryBody, tryFragment.Builds s.kind :=
    List.forall_mem_singleton.2 (.whileLoop trivial (List.forall_mem_singleton.2 htry) nofun)
  obtain ⟨hmodule, hfunction, hclass⟩ := try_else_entered_on_completion
  exact ⟨hbuilds, hmodule {} ⟨retryBody⟩ hbuilds, hfunction {} _ {} hbuilds, hclass {} _ {} hbuilds⟩

end PythonToCSharp.Lowering
