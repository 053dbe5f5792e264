import PythonToCSharp.Proofs.Execution.CSharp

/-!
Code has one run at most that ends, on a machine that does one thing at most.
-/

namespace PythonToCSharp.CSharp

/-- A machine that does one thing at most. -/
structure Machine.Deterministic (m : Machine) : Prop where
  runs : ∀ {s state fault fault' after after'},
    m.runs s state fault after → m.runs s state fault' after' → fault' = fault ∧ after' = after
  tests : ∀ {e state result result' after after'}, m.tests e state result after →
    m.tests e state result' after' → result' = result ∧ after' = after
  elements : ∀ {e state result result' after after'}, m.elements e state result after →
    m.elements e state result' after' → result' = result ∧ after' = after

/-- Every run that is not cut off is this one. -/
def Sole {m : Machine} (code : Code m) (c : Config m) (tr : List (Event m)) (o : Outcome m.Fault)
    (c₁ : Config m) : Prop :=
  ∀ ⦃tr' o' c'⦄, Exec m code c tr' o' c' → o' ≠ .cut → tr' = tr ∧ o' = o ∧ c' = c₁

variable {m : Machine} {c c₁ c₂ c₃ : Config m} {tr tr₁ tr₂ tr₃ : List (Event m)}
  {o o₁ o₂ o₃ : Outcome m.Fault} {state : m.State}

/-! ## Single statements -/

theorem Tests.unique (hm : m.Deterministic) {e : Expr} {r r' : Except m.Fault Bool}
    {state' : m.State}
    (h : Tests m e c tr r state) (h' : Tests m e c tr₁ r' state') :
    tr₁ = tr ∧ r' = r ∧ state' = state := by
  cases h with
  | flag hv => exact h'.of_flag hv
  | notFlag hv => exact h'.of_notFlag hv
  | other hn ht =>
    cases h' with
    | flag hv =>
      rw [hn _ rfl] at hv
      cases hv
    | notFlag hv =>
      rw [hn _ rfl] at hv
      cases hv
    | other _ ht' =>
      obtain ⟨rfl, rfl⟩ := hm.tests ht ht'
      exact ⟨rfl, rfl, rfl⟩

/-- A line runs to its end or raises, and neither sets a truth value nor is a loop. -/
theorem line_cases {s : Stmt} (hs : s.isLine = true) (hf : ∀ x ∈ s.target?, c.flags x = none)
    (h : Exec m (.stmt s) c tr o c₁) (ho : o ≠ .cut) : ∃ fault after, m.runs s c.state fault after ∧
      tr = [.ran s fault] ∧ o = fault.elim s.ending .raised ∧ c₁ = ⟨after, c.flags⟩ := by
  cases h with
  | cut => exact absurd rfl ho
  | line _ _ hr => exact ⟨_, _, hr, rfl, rfl, rfl⟩
  | lineRaises _ _ hr => exact ⟨_, _, hr, rfl, rfl, rfl⟩
  | setFlag hd =>
    rw [hf _ rfl] at hd
    cases hd
  | forEach hs' =>
    rw [hs] at hs'
    cases hs'
  | forEachRaises hs' =>
    rw [hs] at hs'
    cases hs'
  | _ => cases hs

theorem sole_line (hm : m.Deterministic) {s : Stmt} {fault : Option m.Fault} (hs : s.isLine = true)
    (hf : ∀ x ∈ s.target?, c.flags x = none) (h : m.runs s c.state fault state) :
    Sole (.stmt s) c [.ran s fault] (fault.elim s.ending .raised) ⟨state, c.flags⟩ := by
  intro tr' o' c' h' ho
  obtain ⟨fault', after, hr, rfl, rfl, rfl⟩ := line_cases hs hf h' ho
  obtain ⟨rfl, rfl⟩ := hm.runs h hr
  exact ⟨rfl, rfl, rfl⟩

theorem sole_flag (name : String) (value : Bool) (c : Config m) :
    Sole (.stmt (.flag name value)) c [] .normal ⟨c.state, c.flags.set name value⟩ := by
  intro tr' o' c' h ho
  obtain ⟨rfl, ⟨rfl, rfl⟩ | ⟨rfl, -⟩⟩ := h.flag_cases
  · exact ⟨rfl, rfl, rfl⟩
  · exact absurd rfl ho

theorem sole_setFlag {name : String} (hd : (c.flags name).isSome = true) (value : Bool) :
    Sole (.stmt (.assign (.name name) (.ofBool value))) c [] .normal
      ⟨c.state, c.flags.set name value⟩ := by
  intro tr' o' c' h ho
  obtain ⟨rfl, ⟨rfl, rfl⟩ | ⟨rfl, -⟩⟩ := h.setFlag_cases hd
  · exact ⟨rfl, rfl, rfl⟩
  · exact absurd rfl ho

theorem sole_break (c : Config m) : Sole (.stmt .break_) c [] .broke c := by
  intro tr' o' c' h ho
  obtain ⟨rfl, rfl, rfl | rfl⟩ := h.break_cases
  · exact ⟨rfl, rfl, rfl⟩
  · exact absurd rfl ho

theorem sole_continue (c : Config m) : Sole (.stmt .continue_) c [] .continued c := by
  intro tr' o' c' h ho
  obtain ⟨rfl, rfl, rfl | rfl⟩ := h.continue_cases
  · exact ⟨rfl, rfl, rfl⟩
  · exact absurd rfl ho

/-! ## Blocks and conditions -/

section

variable {s : Stmt} {rest : List Stmt}

theorem sole_cons (hs : Sole (.stmt s) c tr₁ .normal c₁) (hr : Sole (.block rest) c₁ tr₂ o c₂) :
    Sole (.block (s :: rest)) c (tr₁ ++ tr₂) o c₂ := by
  intro tr' o' c' h ho
  rcases h.cons_cases with ⟨tr₃, c₃, tr₄, hs', hr', rfl⟩ | ⟨hs', hne⟩
  · obtain ⟨rfl, -, rfl⟩ := hs hs' nofun
    obtain ⟨rfl, rfl, rfl⟩ := hr hr' ho
    exact ⟨rfl, rfl, rfl⟩
  · obtain ⟨-, rfl, -⟩ := hs hs' ho
    exact absurd rfl hne

theorem sole_stop (hs : Sole (.stmt s) c tr o c₁) (hne : o ≠ .normal) :
    Sole (.block (s :: rest)) c tr o c₁ := by
  intro tr' o' c' h ho
  rcases h.cons_cases with ⟨tr₃, c₃, tr₄, hs', -, rfl⟩ | ⟨hs', -⟩
  · obtain ⟨-, rfl, -⟩ := hs hs' nofun
    exact absurd rfl hne
  · exact hs hs' ho

end

section

variable {branch : Branch} {rest branches : List Branch} {otherwise : Option (List Stmt)}

theorem sole_ifElse (hb : Sole (.branches branches otherwise) c tr o c₁) :
    Sole (.stmt (.ifElse branches otherwise)) c tr o c₁ := by
  intro tr' o' c' h ho
  cases h with
  | cut => exact absurd rfl ho
  | line hs => cases hs
  | lineRaises hs => cases hs
  | ifElse h => exact hb h ho

theorem sole_taken (hm : m.Deterministic) (ht : Tests m branch.test c tr₁ (.ok true) state)
    (hb : Sole (.block branch.body) ⟨state, c.flags⟩ tr₂ o c₁) :
    Sole (.branches (branch :: rest) otherwise) c (tr₁ ++ tr₂) o c₁ := by
  intro tr' o' c' h ho
  cases h with
  | taken ht' hb' =>
    obtain ⟨rfl, -, rfl⟩ := ht.unique hm ht'
    obtain ⟨rfl, rfl, rfl⟩ := hb hb' ho
    exact ⟨rfl, rfl, rfl⟩
  | skipped ht' | branchRaises ht' =>
    obtain ⟨-, hr, -⟩ := ht.unique hm ht'
    cases hr

theorem sole_skipped (hm : m.Deterministic) (ht : Tests m branch.test c tr₁ (.ok false) state)
    (hr : Sole (.branches rest otherwise) ⟨state, c.flags⟩ tr₂ o c₁) :
    Sole (.branches (branch :: rest) otherwise) c (tr₁ ++ tr₂) o c₁ := by
  intro tr' o' c' h ho
  cases h with
  | skipped ht' hr' =>
    obtain ⟨rfl, -, rfl⟩ := ht.unique hm ht'
    obtain ⟨rfl, rfl, rfl⟩ := hr hr' ho
    exact ⟨rfl, rfl, rfl⟩
  | taken ht' | branchRaises ht' =>
    obtain ⟨-, hresult, -⟩ := ht.unique hm ht'
    cases hresult

theorem sole_branchRaises (hm : m.Deterministic) {fault : m.Fault}
    (ht : Tests m branch.test c tr (.error fault) state) :
    Sole (.branches (branch :: rest) otherwise) c tr (.raised fault) ⟨state, c.flags⟩ := by
  intro tr' o' c' h ho
  cases h with
  | taken ht' | skipped ht' =>
    obtain ⟨-, hr, -⟩ := ht.unique hm ht'
    cases hr
  | branchRaises ht' =>
    obtain ⟨rfl, hr, rfl⟩ := ht.unique hm ht'
    cases hr
    exact ⟨rfl, rfl, rfl⟩

theorem sole_otherwise {body : List Stmt} (hb : Sole (.block body) c tr o c₁) :
    Sole (.branches [] (some body)) c tr o c₁ := by
  intro tr' o' c' h ho
  cases h with
  | otherwise h => exact hb h ho

end

/-! ## Loops -/

section

variable {test : Expr} {body : List Stmt}

theorem sole_while (hl : Sole (.loop test body) c tr o c₁) :
    Sole (.stmt (.whileLoop test body)) c tr o.afterLoop c₁ := by
  intro tr' o' c' h ho
  cases h with
  | cut => exact absurd rfl ho
  | line hs => cases hs
  | lineRaises hs => cases hs
  | whileLoop h =>
    obtain ⟨rfl, rfl, rfl⟩ := hl h (Outcome.ne_cut_of_afterLoop ho)
    exact ⟨rfl, rfl, rfl⟩

theorem sole_loopEnds (hm : m.Deterministic) (ht : Tests m test c tr (.ok false) state) :
    Sole (.loop test body) c tr .normal ⟨state, c.flags⟩ := by
  intro tr' o' c' h ho
  cases h with
  | cutLoop => exact absurd rfl ho
  | loopEnds ht' =>
    obtain ⟨rfl, -, rfl⟩ := ht.unique hm ht'
    exact ⟨rfl, rfl, rfl⟩
  | loopNext ht' | loopStops ht' | loopRaises ht' =>
    obtain ⟨-, hr, -⟩ := ht.unique hm ht'
    cases hr

theorem sole_loopRaises (hm : m.Deterministic) {fault : m.Fault}
    (ht : Tests m test c tr (.error fault) state) :
    Sole (.loop test body) c tr (.raised fault) ⟨state, c.flags⟩ := by
  intro tr' o' c' h ho
  cases h with
  | cutLoop => exact absurd rfl ho
  | loopRaises ht' =>
    obtain ⟨rfl, hr, rfl⟩ := ht.unique hm ht'
    cases hr
    exact ⟨rfl, rfl, rfl⟩
  | loopEnds ht' | loopNext ht' | loopStops ht' =>
    obtain ⟨-, hr, -⟩ := ht.unique hm ht'
    cases hr

theorem sole_loopNext (hm : m.Deterministic) (ht : Tests m test c tr (.ok true) state)
    (hb : Sole (.block body) ⟨state, c.flags⟩ tr₁ o₁ c₁) (hgo : o₁.goesOn = true)
    (hl : Sole (.loop test body) c₁ tr₂ o c₂) :
    Sole (.loop test body) c (tr ++ (tr₁ ++ tr₂)) o c₂ := by
  intro tr' o' c' h ho
  cases h with
  | cutLoop => exact absurd rfl ho
  | loopNext ht' hb' hgo' hl' =>
    obtain ⟨rfl, -, rfl⟩ := ht.unique hm ht'
    obtain ⟨rfl, -, rfl⟩ := hb hb' (Outcome.ne_cut_of_goesOn hgo')
    obtain ⟨rfl, rfl, rfl⟩ := hl hl' ho
    exact ⟨rfl, rfl, rfl⟩
  | loopStops ht' hb' hgo' =>
    obtain ⟨-, -, rfl⟩ := ht.unique hm ht'
    obtain ⟨-, rfl, -⟩ := hb hb' ho
    exact absurd (hgo.symm.trans hgo') nofun
  | loopEnds ht' | loopRaises ht' =>
    obtain ⟨-, hr, -⟩ := ht.unique hm ht'
    cases hr

theorem sole_loopStops (hm : m.Deterministic) (ht : Tests m test c tr (.ok true) state)
    (hb : Sole (.block body) ⟨state, c.flags⟩ tr₁ o c₁) (hgo : o.goesOn = false) :
    Sole (.loop test body) c (tr ++ tr₁) o c₁ := by
  intro tr' o' c' h ho
  cases h with
  | cutLoop => exact absurd rfl ho
  | loopNext ht' hb' hgo' hl' =>
    obtain ⟨-, -, rfl⟩ := ht.unique hm ht'
    obtain ⟨-, rfl, -⟩ := hb hb' (Outcome.ne_cut_of_goesOn hgo')
    exact absurd (hgo.symm.trans hgo') nofun
  | loopStops ht' hb' _ =>
    obtain ⟨rfl, -, rfl⟩ := ht.unique hm ht'
    obtain ⟨rfl, rfl, rfl⟩ := hb hb' ho
    exact ⟨rfl, rfl, rfl⟩
  | loopEnds ht' | loopRaises ht' =>
    obtain ⟨-, hr, -⟩ := ht.unique hm ht'
    cases hr

end

section

variable {item : String} {value : m.Value} {values : List m.Value} {body : List Stmt}
  {isAsync : Bool} {source : Expr}

theorem sole_forEach (hm : m.Deterministic)
    (hs : (Stmt.forEach isAsync item source body).isLine = false)
    (he : m.elements source c.state (.ok values) state)
    (hb : Sole (.each item values body) ⟨state, c.flags⟩ tr o c₁) :
    Sole (.stmt (.forEach isAsync item source body)) c tr o.afterLoop c₁ := by
  intro tr' o' c' h ho
  cases h with
  | cut => exact absurd rfl ho
  | line hs' | lineRaises hs' => exact absurd (hs.symm.trans hs') nofun
  | forEach _ he' h =>
    obtain ⟨hr, rfl⟩ := hm.elements he he'
    cases hr
    obtain ⟨rfl, rfl, rfl⟩ := hb h (Outcome.ne_cut_of_afterLoop ho)
    exact ⟨rfl, rfl, rfl⟩
  | forEachRaises _ he' =>
    obtain ⟨hr, -⟩ := hm.elements he he'
    cases hr

theorem sole_forEachRaises (hm : m.Deterministic) {fault : m.Fault}
    (hs : (Stmt.forEach isAsync item source body).isLine = false)
    (he : m.elements source c.state (.error fault) state) :
    Sole (.stmt (.forEach isAsync item source body)) c [] (.raised fault) ⟨state, c.flags⟩ := by
  intro tr' o' c' h ho
  cases h with
  | cut => exact absurd rfl ho
  | line hs' | lineRaises hs' => exact absurd (hs.symm.trans hs') nofun
  | forEach _ he' =>
    obtain ⟨hr, -⟩ := hm.elements he he'
    cases hr
  | forEachRaises _ he' =>
    obtain ⟨hr, rfl⟩ := hm.elements he he'
    cases hr
    exact ⟨rfl, rfl, rfl⟩

theorem sole_eachNext (hb : Sole (.block body) ⟨m.bind item value c.state, c.flags⟩ tr₁ o₁ c₁)
    (hgo : o₁.goesOn = true) (hr : Sole (.each item values body) c₁ tr₂ o c₂) :
    Sole (.each item (value :: values) body) c (tr₁ ++ tr₂) o c₂ := by
  intro tr' o' c' h ho
  cases h with
  | eachNext hb' hgo' hr' =>
    obtain ⟨rfl, -, rfl⟩ := hb hb' (Outcome.ne_cut_of_goesOn hgo')
    obtain ⟨rfl, rfl, rfl⟩ := hr hr' ho
    exact ⟨rfl, rfl, rfl⟩
  | eachStops hb' hgo' =>
    obtain ⟨-, rfl, -⟩ := hb hb' ho
    exact absurd (hgo.symm.trans hgo') nofun

theorem sole_eachStops (hb : Sole (.block body) ⟨m.bind item value c.state, c.flags⟩ tr o c₁)
    (hgo : o.goesOn = false) : Sole (.each item (value :: values) body) c tr o c₁ := by
  intro tr' o' c' h ho
  cases h with
  | eachNext hb' hgo' =>
    obtain ⟨-, rfl, -⟩ := hb hb' (Outcome.ne_cut_of_goesOn hgo')
    exact absurd (hgo.symm.trans hgo') nofun
  | eachStops hb' _ => exact hb hb' ho

end

/-! ## Exceptions -/

section

variable {body : List Stmt} {clause : Catch} {catches rest : List Catch}
  {cleanup : Option (List Stmt)} {fault : m.Fault}

/-- Behind what is cut off, the cleanup is cut off too. -/
theorem ne_cut_of_finish (h : Exec m (.finish cleanup o) c tr o₁ c₁) (ho : o₁ ≠ .cut) :
    o ≠ .cut := by
  cases h with
  | noCleanup => exact ho
  | unfinished => exact absurd rfl ho
  | cleanup hne _ => exact hne

/-- No clause is entered behind what is cut off. -/
theorem ne_cut_of_handle (h : Exec m (.handle catches o) c tr o₁ c₁) (ho : o₁ ≠ .cut) :
    o ≠ .cut := by
  cases h with
  | passes => exact ho
  | uncaught | caught | missed => exact nofun

theorem sole_tryCatch (hb : Sole (.block body) c tr₁ o₁ c₁)
    (hh : Sole (.handle catches o₁) c₁ tr₂ o₂ c₂) (hf : Sole (.finish cleanup o₂) c₂ tr₃ o₃ c₃) :
    Sole (.stmt (.tryCatch body catches cleanup)) c (tr₁ ++ (tr₂ ++ tr₃)) o₃ c₃ := by
  intro tr' o' c' h ho
  cases h with
  | cut => exact absurd rfl ho
  | line hs => cases hs
  | lineRaises hs => cases hs
  | tryCatch hb' hh' hf' =>
    have hne := ne_cut_of_finish hf' ho
    obtain ⟨rfl, rfl, rfl⟩ := hb hb' (ne_cut_of_handle hh' hne)
    obtain ⟨rfl, rfl, rfl⟩ := hh hh' hne
    obtain ⟨rfl, rfl, rfl⟩ := hf hf' ho
    exact ⟨rfl, rfl, rfl⟩

theorem sole_passes (c : Config m) (hne : ∀ fault, o ≠ .raised fault) :
    Sole (.handle catches o) c [] o c := by
  intro tr' o' c' h ho
  cases h with
  | passes => exact ⟨rfl, rfl, rfl⟩
  | uncaught | caught | missed => exact absurd rfl (hne _)

theorem sole_uncaught (fault : m.Fault) (c : Config m) :
    Sole (.handle [] (.raised fault)) c [] (.raised fault) c := by
  intro tr' o' c' h ho
  cases h with
  | passes _ hne => exact absurd rfl (hne _)
  | uncaught => exact ⟨rfl, rfl, rfl⟩

theorem sole_caught (hc : m.catches clause.caught fault c.state = some state)
    (hb : Sole (.block clause.body) ⟨state, c.flags⟩ tr o c₁) :
    Sole (.handle (clause :: rest) (.raised fault)) c tr o c₁ := by
  intro tr' o' c' h ho
  cases h with
  | passes _ hne => exact absurd rfl (hne _)
  | caught hc' hb' =>
    cases hc.symm.trans hc'
    exact hb hb' ho
  | missed hc' => exact absurd (hc.symm.trans hc') nofun

theorem sole_missed (hc : m.catches clause.caught fault c.state = none)
    (hr : Sole (.handle rest (.raised fault)) c tr o c₁) :
    Sole (.handle (clause :: rest) (.raised fault)) c tr o c₁ := by
  intro tr' o' c' h ho
  cases h with
  | passes _ hne => exact absurd rfl (hne _)
  | caught hc' => exact absurd (hc.symm.trans hc') nofun
  | missed _ hr' => exact hr hr' ho

theorem sole_cleanup (hne : o ≠ .cut) (hb : Sole (.block body) c tr o₁ c₁) :
    Sole (.finish (some body) o) c tr (o.followed o₁) c₁ := by
  intro tr' o' c' h ho
  cases h with
  | unfinished => exact absurd rfl hne
  | @cleanup _ _ o₂ _ _ _ _ hb' =>
    have hcut : o₂ ≠ .cut := by
      rintro rfl
      exact ho rfl
    obtain ⟨rfl, rfl, rfl⟩ := hb hb' hcut
    exact ⟨rfl, rfl, rfl⟩

end

/-- A run that ends is the only one that does. The induction is on that run: no other can leave it
first. -/
theorem Exec.sole (hm : m.Deterministic) {code : Code m} (h : Exec m code c tr o c₁)
    (ho : o ≠ .cut) : Sole code c tr o c₁ := by
  induction h with
  | cut => exact absurd rfl ho
  | cutLoop => exact absurd rfl ho
  | line hs hf hr => exact sole_line hm hs hf hr
  | lineRaises hs hf hr => exact sole_line hm hs hf hr
  | flag name value c => exact sole_flag name value c
  | setFlag hd he =>
    subst he
    exact sole_setFlag hd _
  | break_ c => exact sole_break c
  | continue_ c => exact sole_continue c
  | nil c =>
    intro tr' o' c' h _
    cases h
    exact ⟨rfl, rfl, rfl⟩
  | cons _ _ ihs ihr => exact sole_cons (ihs nofun) (ihr ho)
  | stop _ hne ihs => exact sole_stop (ihs ho) hne
  | ifElse _ ih => exact sole_ifElse (ih ho)
  | taken ht _ ih => exact sole_taken hm ht (ih ho)
  | skipped ht _ ih => exact sole_skipped hm ht (ih ho)
  | branchRaises ht => exact sole_branchRaises hm ht
  | otherwise _ ih => exact sole_otherwise (ih ho)
  | noBranch c =>
    intro tr' o' c' h _
    cases h
    exact ⟨rfl, rfl, rfl⟩
  | whileLoop _ ih => exact sole_while (ih (Outcome.ne_cut_of_afterLoop ho))
  | loopEnds ht => exact sole_loopEnds hm ht
  | loopNext ht _ hgo _ ihb ihl =>
    exact sole_loopNext hm ht (ihb (Outcome.ne_cut_of_goesOn hgo)) hgo (ihl ho)
  | loopStops ht _ hgo ihb => exact sole_loopStops hm ht (ihb ho) hgo
  | loopRaises ht => exact sole_loopRaises hm ht
  | forEach hs he _ ih => exact sole_forEach hm hs he (ih (Outcome.ne_cut_of_afterLoop ho))
  | forEachRaises hs he => exact sole_forEachRaises hm hs he
  | eachEnds item body c =>
    intro tr' o' c' h _
    cases h
    exact ⟨rfl, rfl, rfl⟩
  | eachNext _ hgo _ ihb ihr =>
      exact sole_eachNext (ihb (Outcome.ne_cut_of_goesOn hgo)) hgo (ihr ho)
  | eachStops _ hgo ihb => exact sole_eachStops (ihb ho) hgo
  | tryCatch _ hh hf ihb ihh ihf =>
    have hne := ne_cut_of_finish hf ho
    exact sole_tryCatch (ihb (ne_cut_of_handle hh hne)) (ihh hne) (ihf ho)
  | passes c hne => exact sole_passes c hne
  | uncaught fault c => exact sole_uncaught fault c
  | caught hc _ ih => exact sole_caught hc (ih ho)
  | missed hc _ ih => exact sole_missed hc (ih ho)
  | noCleanup o c =>
    intro tr' o' c' h _
    cases h
    exact ⟨rfl, rfl, rfl⟩
  | unfinished => exact absurd rfl ho
  | cleanup hne _ ih =>
    refine sole_cleanup hne (ih ?_)
    rintro rfl
    exact ho rfl

end PythonToCSharp.CSharp
