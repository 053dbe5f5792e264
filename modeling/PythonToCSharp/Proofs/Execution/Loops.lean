import PythonToCSharp.Proofs.Execution.Marks
import PythonToCSharp.Proofs.Execution.Runtime

/-!
Conditionals and loops keep their meaning.

For bodies of assignments, `if`, `while`, `for`, `break`, `continue` and `pass`, every run of the
source that ends is followed by a run of the emitted lines that ends in the same way, with the same
values for the variables of the source. The marks tell what they should: that of a `while` whether a
`break` has left it, that of a `for` whether there was an element.
-/

namespace PythonToCSharp.Lowering

open CSharp (escapeIdentifier isIdentifier Exec Flags Sole Tests)
open Python (Runs)
open Body (Inside)

/-- What is fixed while the body of a module of such statements is lowered. -/
abbrev loopBody (names : LibraryNames) (reserved flags : List String) : Body :=
  ⟨names, none, reserved, flags, loopFragment⟩

section

variable {names : LibraryNames} {R : Runtime names} {reserved flags : List String}
  {start : Store R.Value} {own inner : String → Prop} {mark : Option String}

/-- Every run of the source that ends is followed by a run of the code that ends in the same way,
with matching stores, and keeps the truth values that are not its own. -/
def Leads (R : Runtime names) (reserved flags : List String) (start : Store R.Value)
    (own : String → Prop)
    (mark : Option String) (source : Python.Code R.meaning) (code : CSharp.Code R.machine) : Prop :=
  ∀ {before after state : Store R.Value} {tr : List Empty} {o : Outcome Empty} {truths : Flags},
    Runs R.meaning source before tr o after → o ≠ .cut → Matches reserved start before state →
      (loopBody names reserved flags).Clear own mark truths →
        ∃ tr' state' truths', Exec R.machine code ⟨state, truths⟩ tr' o ⟨state', truths'⟩ ∧
          Matches reserved start after state' ∧ Keeps True own mark truths o truths'

/-! ## Single statements -/

theorem exec_assign {state : Store R.Value} {truths : Flags} {x : String} {e : CSharp.Expr}
    {v : R.Value} (hx : truths x = none) (he : R.csharp e state = some v) :
    Exec R.machine (.stmt (.assign (.name x) e)) ⟨state, truths⟩
      [.ran (.assign (.name x) e) none] .normal ⟨state.set x v, truths⟩ := by
  refine Exec.line (s := .assign (.name x) e) rfl ?_ ⟨?_, rfl⟩
  · rintro y ⟨⟩
    exact hx
  · show (R.csharp e state).map (state.set x) = some (state.set x v)
    rw [he]
    rfl

/-- The names behind the first take its value. -/
theorem exec_copies {first : String} {v : R.Value} {ids : List String}
    (hr : ∀ id ∈ ids, id ∈ reserved)
    (hi : ∀ id ∈ ids, isIdentifier id.toList = true) {before state : Store R.Value} {truths : Flags}
    (hc : (loopBody names reserved flags).Clear own mark truths)
    (hm : Matches reserved start before state)
    (hv : state (escapeIdentifier first) = some v) : ∃ tr state',
      Exec R.machine (.block (ids.map fun other =>
        .assign (.name (escapeIdentifier other)) (.name (escapeIdentifier first))))
          ⟨state, truths⟩ tr .normal ⟨state', truths⟩ ∧
        Matches reserved start (ids.foldl (fun store id => store.set id v) before) state' := by
  induction ids generalizing before state with
  | nil => exact ⟨[], state, .nil _, hm⟩
  | cons id rest ih =>
    obtain ⟨hid, hrest⟩ := List.forall_mem_cons.1 hr
    obtain ⟨hident, hidents⟩ := List.forall_mem_cons.1 hi
    have hread : R.csharp (.name (escapeIdentifier first)) state = some v :=
      (R.csharp_name _ _).trans hv
    have hline := exec_assign (hc.user (.inr ⟨id, hid, rfl⟩)) hread
    -- the first name may stand among the others, and takes the same value again then
    have hkept : state.set (escapeIdentifier id) v (escapeIdentifier first) = some v := by
      by_cases heq : escapeIdentifier first = escapeIdentifier id
      · rw [heq, state.set_self]
      · rw [state.set_ne heq, hv]
    obtain ⟨tr, state', hexec, hmatch⟩ := ih hrest hidents (hm.assign hid hident v) hkept
    exact ⟨_, state', .cons hline hexec, hmatch⟩

theorem foldlM_assignTo (v : R.Value) (ids : List String) (store : Store R.Value) :
    (ids.map Python.Expr.name).foldlM (R.assignTo v) store =
      some (ids.foldl (fun store id => store.set id v) store) := by
  induction ids generalizing store with
  | nil => rfl
  | cons id rest ih => exact ih (store.set id v)

theorem leads_plain {kind : Python.StmtKind} (hp : PlainStatement kind)
    (hr : ∀ id ∈ kind.boundByForm, id ∈ reserved) {lines : Block}
    (hl : LowersKind names none kind lines) :
    Leads R reserved flags start own mark (.stmt kind) (.block lines) := by
  intro before after state tr o truths h ho hm hc
  cases hp with
  | pass =>
    obtain ⟨s, last, -, hrun⟩ := hl
    cases hrun
    cases h with
    | cut => exact absurd rfl ho
    | cutEnd => exact absurd rfl ho
    | simple _ hs =>
      obtain ⟨hperform, -, rfl⟩ := hs
      cases hperform
      exact ⟨_, state, truths, .singleton (.line rfl nofun ⟨rfl, rfl⟩), hm, .refl nofun⟩
  | @assign ids value hn hi hv =>
    obtain ⟨id, rest, rfl⟩ := List.exists_cons_of_ne_nil hn
    obtain rfl := lowersKind_assign hv hl
    have hbound : ∀ other ∈ id :: rest, other ∈ reserved := by
      intro other ho
      exact hr other (List.mem_flatMap_of_mem (List.mem_map_of_mem ho) List.mem_cons_self)
    obtain ⟨hid, hrest⟩ := List.forall_mem_cons.1 hbound
    obtain ⟨hident, hidents⟩ := List.forall_mem_cons.1 hi
    cases h with
    | cut => exact absurd rfl ho
    | cutEnd => exact absurd rfl ho
    | simple _ hs =>
      obtain ⟨hperform, -, rfl⟩ := hs
      obtain ⟨v, hvalue, hfold⟩ := Option.bind_eq_some_iff.1 hperform
      rw [foldlM_assignTo] at hfold
      cases hfold
      have hline := exec_assign (hc.user (.inr ⟨id, hid, rfl⟩))
        (R.agree hv (fun _ _ => hm.read) hvalue)
      obtain ⟨tr', state', hexec, hmatch⟩ :=
        exec_copies hrest hidents hc (hm.assign hid hident v) (state.set_self _ v)
      exact ⟨_, state', truths, .cons hline hexec, hmatch, .refl nofun⟩

theorem leads_break :
    Leads R reserved flags start own none (.stmt .breakStmt) (.block [.break_]) := by
  intro before after state tr o truths h ho hm _
  cases h with
  | cut => exact absurd rfl ho
  | cutEnd => exact absurd rfl ho
  | simple hk => cases hk
  | break_ => exact ⟨[], state, truths, .singleton (.break_ _), hm, .refl_unmarked⟩

theorem leads_breakMarked (name : String) :
    Leads R reserved flags start own (some name) (.stmt .breakStmt)
      (.block [setMark name false, .break_]) := by
  intro before after state tr o truths h ho hm hc
  cases h with
  | cut => exact absurd rfl ho
  | cutEnd => exact absurd rfl ho
  | simple hk => cases hk
  | break_ =>
    have hset := exec_setMark (m := R.machine) state (hc.marked name rfl) false
    exact ⟨_, state, _, .cons hset (.singleton (.break_ _)), hm, .clear name fun _ => rfl⟩

theorem leads_continue :
    Leads R reserved flags start own mark (.stmt .continueStmt) (.block [.continue_]) := by
  intro before after state tr o truths h ho hm _
  cases h with
  | cut => exact absurd rfl ho
  | cutEnd => exact absurd rfl ho
  | simple hk => cases hk
  | continue_ => exact ⟨[], state, truths, .singleton (.continue_ _), hm, .refl nofun⟩

/-! ## Blocks and conditions -/

theorem leads_nil : Leads R reserved flags start own mark (.block []) (.block []) := by
  intro before after state tr o truths h ho hm _
  cases h with
  | cut => exact absurd rfl ho
  | cutEnd => exact absurd rfl ho
  | nil => exact ⟨[], state, truths, .nil _, hm, .refl nofun⟩

theorem leads_cons {stmt : Python.Stmt} {rest : List Python.Stmt} {first rest' : Block}
    (hs : Leads R reserved flags start own mark (.stmt stmt.kind) (.block first))
    (hr : Leads R reserved flags start own mark (.block rest) (.block rest')) :
    Leads R reserved flags start own mark (.block (stmt :: rest)) (.block (first ++ rest')) := by
  intro before after state tr o truths h ho hm hc
  cases h with
  | cut => exact absurd rfl ho
  | cutEnd => exact absurd rfl ho
  | cons h₁ h₂ =>
    obtain ⟨tr₁, state₁, truths₁, hx, hm₁, hk₁⟩ := hs h₁ nofun hm hc
    obtain ⟨tr₂, state₂, truths₂, hy, hm₂, hk₂⟩ := hr h₂ ho hm₁ (hc.keeps hk₁)
    exact ⟨_, state₂, truths₂, hx.append hy, hm₂, hk₁.trans (fun _ => nofun) hk₂⟩
  | stop h₁ hne =>
    obtain ⟨tr₁, state₁, truths₁, hx, hm₁, hk₁⟩ := hs h₁ ho hm hc
    exact ⟨_, state₁, truths₁, hx.append_left hne, hm₁, hk₁⟩

theorem leads_noElse :
    Leads R reserved flags start own mark (.branches [] none) (.branches [] none) := by
  intro before after state tr o truths h ho hm _
  cases h with
  | cut => exact absurd rfl ho
  | cutEnd => exact absurd rfl ho
  | noElse => exact ⟨[], state, truths, .noBranch _, hm, .refl nofun⟩

theorem leads_else {body : List Python.Stmt} {body' : Block}
    (hb : Leads R reserved flags start own mark (.block body) (.block body')) :
    Leads R reserved flags start own mark (.branches [] (some body))
      (.branches [] (some body')) := by
  intro before after state tr o truths h ho hm hc
  cases h with
  | cut => exact absurd rfl ho
  | cutEnd => exact absurd rfl ho
  | orelse h =>
    obtain ⟨tr', state', truths', hx, hm', hk⟩ := hb h ho hm hc
    exact ⟨tr', state', truths', .otherwise hx, hm', hk⟩

/-- A condition comes out on both sides in the same way. No generated truth value decides it: a
variable that does so has a value in the source. -/
theorem tests_tree {e : Python.Expr} (he : IsPure e) {before after state : Store R.Value}
    {tr : List Empty}
    {value : Bool} {truths : Flags} (h : R.meaning.test e before tr (.ok value) after)
    (hm : Matches reserved start before state)
    (hc : (loopBody names reserved flags).Clear own mark truths) :
    after = before ∧ ∃ tr', Tests R.machine (tree names none e)
      ⟨state, truths⟩ tr' (.ok value) state := by
  obtain ⟨result, hresult, hvalue, -, rfl⟩ := h
  cases hvalue
  obtain ⟨v, hv, htruth⟩ := Option.bind_eq_some_iff.1 hresult
  refine ⟨rfl, _, .other ?_ ⟨value, ?_, rfl, rfl⟩⟩
  · -- what decides the condition alone is a variable with a value, hence one of the source
    intro x hx
    obtain ⟨id, rfl, hid⟩ := decider?_tree he.operators hx
    have hassigned : ∃ w, after id = some w := by
      rcases hid with rfl | rfl
      · exact ⟨v, (R.python_name id after).symm.trans hv⟩
      · have hsome := R.python_not id after (by rw [hv]; rfl)
        exact Option.isSome_iff_exists.1 hsome
    obtain ⟨w, hw⟩ := hassigned
    exact hc.user (.inr ⟨id, (hm.bound id w hw).1, rfl⟩)
  · show (R.csharp (tree names none e) state).bind R.truth = some value
    rw [R.agree he (fun _ _ => hm.read) hv]
    exact htruth

theorem leads_branch {test : Python.Expr} {test' : CSharp.Expr} {body : List Python.Stmt}
    {body' : Block}
    {rest : List Python.Branch} {rest' : List CSharp.Branch} {orelse : Option (List Python.Stmt)}
    {orelse' : Option Block} (ht : IsPure test) (hl : LowersExpr names none test test')
    (hb : Leads R reserved flags start own mark (.block body) (.block body'))
    (hr : Leads R reserved flags start own mark (.branches rest orelse) (.branches rest' orelse')) :
    Leads R reserved flags start own mark (.branches (⟨test, body⟩ :: rest) orelse)
      (.branches (⟨test', body'⟩ :: rest') orelse') := by
  obtain rfl := ht.lowered hl
  intro before after state tr o truths h ho hm hc
  cases h with
  | cut => exact absurd rfl ho
  | cutEnd => exact absurd rfl ho
  | taken htest h =>
    obtain ⟨rfl, tr₁, htest'⟩ := tests_tree ht htest hm hc
    obtain ⟨tr₂, state', truths', hx, hm', hk⟩ := hb h ho hm hc
    exact ⟨_, state', truths', .taken htest' hx, hm', hk⟩
  | skipped htest h =>
    obtain ⟨rfl, tr₁, htest'⟩ := tests_tree ht htest hm hc
    obtain ⟨tr₂, state', truths', hx, hm', hk⟩ := hr h ho hm hc
    exact ⟨_, state', truths', .skipped htest' hx, hm', hk⟩
  | branchRaises htest =>
    obtain ⟨_, -, hresult, -⟩ := htest
    cases hresult

theorem leads_ifChain {branches : List Python.Branch} {branches' : List CSharp.Branch}
    {orelse : Option (List Python.Stmt)} {orelse' : Option Block}
    (hb : Leads R reserved flags start own mark (.branches branches orelse)
      (.branches branches' orelse')) :
    Leads R reserved flags start own mark (.stmt (.ifChain branches orelse))
      (.block [.ifElse branches' orelse']) := by
  intro before after state tr o truths h ho hm hc
  cases h with
  | cut => exact absurd rfl ho
  | cutEnd => exact absurd rfl ho
  | simple hk => cases hk
  | ifChain h =>
    obtain ⟨tr', state', truths', hx, hm', hk⟩ := hb h ho hm hc
    exact ⟨tr', state', truths', .singleton (.ifElse hx), hm', hk⟩

/-! ## `while` -/

section

variable {test : Python.Expr} {test' : CSharp.Expr} {body orelse : List Python.Stmt}
  {body' orelse' : Block}

/-- The iterations of a loop, one after the other. -/
theorem leads_loop (ht : IsPure test) (hl : LowersExpr names none test test')
    (hb : Leads R reserved flags start own mark (.block body) (.block body')) :
    Leads R reserved flags start own mark (.loop test body) (.loop test' body') := by
  obtain rfl := ht.lowered hl
  -- the induction is on the run of the source, whose code is this loop each time around
  have hloop : ∀ {code : Python.Code R.meaning} {before after : Store R.Value} {tr : List Empty}
      {o : Outcome Empty}, Runs R.meaning code before tr o after →
        code = .loop test body → o ≠ .cut →
      ∀ {state : Store R.Value} {truths : Flags}, Matches reserved start before state →
        (loopBody names reserved flags).Clear own mark truths → ∃ tr' state' truths',
          Exec R.machine (.loop (tree names none test) body') ⟨state, truths⟩ tr' o
            ⟨state', truths'⟩ ∧
            Matches reserved start after state' ∧ Keeps True own mark truths o truths' := by
    intro code before after tr o h
    induction h with
    | cut =>
      intro _ ho
      exact absurd rfl ho
    | cutEnd =>
      intro _ ho
      exact absurd rfl ho
    | loopEnds htest =>
      rintro ⟨⟩ _ state truths hm hc
      obtain ⟨rfl, tr₁, htest'⟩ := tests_tree ht htest hm hc
      exact ⟨_, state, truths, .loopEnds htest', hm, .refl nofun⟩
    | loopRaises htest =>
      obtain ⟨_, -, hresult, -⟩ := htest
      cases hresult
    | loopStops htest h hgo =>
      rintro ⟨⟩ ho state truths hm hc
      obtain ⟨rfl, tr₁, htest'⟩ := tests_tree ht htest hm hc
      obtain ⟨tr₂, state', truths', hx, hm', hk⟩ := hb h ho hm hc
      exact ⟨_, state', truths', .loopStops htest' hx hgo, hm', hk⟩
    | loopNext htest h hgo _ _ ih =>
      rintro ⟨⟩ ho state truths hm hc
      obtain ⟨rfl, tr₁, htest'⟩ := tests_tree ht htest hm hc
      obtain ⟨tr₂, state₂, truths₂, hx, hm₂, hk₂⟩ := hb h (Outcome.ne_cut_of_goesOn hgo) hm hc
      obtain ⟨tr₃, state₃, truths₃, hy, hm₃, hk₃⟩ := ih rfl ho hm₂ (hc.keeps hk₂)
      have hbroke := Outcome.ne_broke_of_goesOn hgo
      exact ⟨_, state₃, truths₃, .loopNext htest' hx hgo hy, hm₃, hk₂.trans (fun _ => hbroke) hk₃⟩
    | _ => exact nofun
  intro before after state tr o truths h ho hm hc
  exact hloop h rfl ho hm hc

theorem leads_while (ht : IsPure test) (hl : LowersExpr names none test test')
    (hb : Leads R reserved flags start own none (.block body) (.block body')) :
    Leads R reserved flags start own mark (.stmt (.whileLoop test body none))
      (.block [.whileLoop test' body']) := by
  intro before after state tr o truths h ho hm hc
  cases h with
  | cut => exact absurd rfl ho
  | cutEnd => exact absurd rfl ho
  | simple hk => cases hk
  | whileLoop h =>
    obtain ⟨tr', state', truths', hx, hm', hk⟩ :=
      leads_loop ht hl hb h (Outcome.ne_cut_of_afterLoop ho) hm hc.unmarked
    exact ⟨tr', state', truths', .singleton (.whileLoop hx), hm', hk.loop hc⟩

/-- The mark is set before the loop. Behind it, it is cleared exactly if a `break` has left the
loop. -/
theorem leads_whileElse {name : String} (hi : Inside own inner name) (ht : IsPure test)
    (hl : LowersExpr names none test test')
    (hb : Leads R reserved flags start inner (some name) (.block body) (.block body'))
    (he : Leads R reserved flags start inner mark (.block orelse) (.block orelse')) :
    Leads R reserved flags start own mark (.stmt (.whileLoop test body (some orelse)))
      (.block [.flag name true, .whileLoop test' body', guarded (.name name) orelse']) := by
  intro before after state tr o truths h ho hm hc
  have hset : Keeps True own mark truths (.normal : Outcome Empty) (truths.set name true) :=
    .set hi.owned (hc.mark_ne hi.owned) true nofun
  have hc₁ := hc.keeps hset
  have htrue := truths.set_self name true
  have hloop {after₁ : Store R.Value} {tr₁ : List Empty} {o₁ : Outcome Empty}
      (h : Runs R.meaning (.loop test body) before tr₁ o₁ after₁) (hcut : o₁ ≠ .cut) :
      ∃ tr' state' truths', Exec R.machine (.loop test' body') ⟨state, truths.set name true⟩ tr' o₁
          ⟨state', truths'⟩ ∧ Matches reserved start after₁ state' ∧
        Keeps True inner (some name) (truths.set name true) o₁ truths' ∧
        Keeps True own mark truths o₁.afterLoop truths' := by
    have hmarked := hc₁.marking hi (by rw [htrue]; rfl)
    obtain ⟨tr', state', truths', hx, hm', hk⟩ := leads_loop ht hl hb h hcut hm hmarked
    exact ⟨tr', state', truths', hx, hm', hk, hset.trans (fun _ => nofun) (hk.loop_marked hi hc₁)⟩
  cases h with
  | cut => exact absurd rfl ho
  | cutEnd => exact absurd rfl ho
  | simple hk => cases hk
  | whileSkipped hw => cases hw
  | whileElse h h' =>
    obtain ⟨tr₁, state₁, truths₁, hx, hm₁, hk, hk₁⟩ := hloop h nofun
    -- nothing but a `break` of this loop clears its mark
    have hvalue : truths₁ name = some true := (hk.marked trivial name rfl nofun).trans htrue
    obtain ⟨tr₂, state₂, truths₂, hy, hm₂, hk₂⟩ := he h' ho hm₁ ((hc.keeps hk₁).inside hi)
    have hguard := Exec.guard_taken (.flag hvalue) hy
    exact ⟨_, state₂, truths₂,
      .cons (.flag name true _) (.cons (.whileLoop hx) (.singleton hguard)), hm₂,
      hk₁.trans (fun _ => nofun) (hk₂.widen hi.within)⟩
  | @whileLeft _ _ _ _ _ _ o₁ h hne =>
    obtain ⟨tr₁, state₁, truths₁, hx, hm₁, hk, hk₁⟩ := hloop h (Outcome.ne_cut_of_afterLoop ho)
    cases o₁ with
    | normal => exact absurd rfl hne
    | broke =>
      have hguard : Exec R.machine (.stmt (guarded (.name name) orelse')) ⟨state₁, truths₁⟩
          [] .normal ⟨state₁, truths₁⟩ := .guard_skipped (.flag (hk.broken name rfl rfl))
      exact ⟨_, state₁, truths₁,
        .cons (.flag name true _) (.cons (.whileLoop hx) (.singleton hguard)), hm₁, hk₁⟩
    | _ => exact ⟨_, state₁, truths₁,
        .cons (.flag name true _) (.stop (.whileLoop hx) nofun), hm₁, hk₁⟩

end

/-! ## `for` -/

section

variable {id item : String} {items : List Python.Expr} {target iter : Python.Expr}
  {target' iter' : CSharp.Expr} {body orelse : List Python.Stmt} {body' orelse' : Block}

theorem mapM_tree (hp : ∀ e ∈ items, IsPure e) {before state : Store R.Value}
    (hm : Matches reserved start before state) {values : List R.Value}
    (h : items.mapM (fun e => R.python e before) = some values) :
    (items.map (tree names none)).mapM (fun e => R.csharp e state) = some values := by
  induction items generalizing values with
  | nil => exact h
  | cons e rest ih =>
    obtain ⟨he, hrest⟩ := List.forall_mem_cons.1 hp
    rw [List.mapM_cons] at h
    obtain ⟨v, hv, h⟩ := Option.bind_eq_some_iff.1 h
    obtain ⟨vs, hvs, h⟩ := Option.bind_eq_some_iff.1 h
    cases h
    rw [List.map_cons, List.mapM_cons, R.agree he (fun _ _ => hm.read) hv, ih hrest hvs]
    rfl

/-- A list display has the same elements on both sides. -/
theorem elements_list (hp : ∀ e ∈ items, IsPure e) {before after state : Store R.Value}
    {values : List R.Value} (h : R.meaning.elements (.list items) before (.ok values) after)
    (hm : Matches reserved start before state) : after = before ∧
      R.machine.elements (.collection names.listType (items.map (tree names none))) state
        (.ok values) state := by
  obtain ⟨result, hresult, hvalues, rfl⟩ := h
  cases hvalues
  exact ⟨rfl, values, mapM_tree hp hm hresult, rfl, rfl⟩

/-- One iteration: the lines start where the loop variable has an element. They expect `P` of the
truth values and leave `Q`. -/
def Iterates (R : Runtime names) (reserved flags : List String) (start : Store R.Value)
    (own : String → Prop)
    (id item : String) (P Q : Flags → Prop) (body : List Python.Stmt) (lines : Block) : Prop :=
  ∀ {before after state : Store R.Value} {v : R.Value} {tr : List Empty} {o : Outcome Empty}
    {truths : Flags},
    Runs R.meaning (.block body) (before.set id v) tr o after → o ≠ .cut → Matches reserved start
      before state → (loopBody names reserved flags).Clear own none truths → P truths →
        ∃ tr' state' truths', Exec R.machine (.block lines) ⟨state.set item v, truths⟩ tr' o
          ⟨state', truths'⟩ ∧
          Matches reserved start after state' ∧ Keeps True own none truths o truths' ∧ Q truths'

/-- The target takes the element from the loop variable. -/
theorem iterates_plain (hu : ¬(loopBody names reserved flags).User item) (hr : id ∈ reserved)
    (hi : isIdentifier id.toList = true)
    (hb : Leads R reserved flags start own none (.block body) (.block body')) :
    Iterates R reserved flags start own id item (fun _ => True) (fun _ => True) body
      (.assign (.name (escapeIdentifier id)) (.name item) :: body') := by
  intro before after state v tr o truths h ho hm hc _
  have hread : R.csharp (.name item) (state.set item v) = some v :=
    (R.csharp_name _ _).trans (state.set_self item v)
  have hline := exec_assign (hc.user (.inr ⟨id, hr, rfl⟩)) hread
  have hm₁ : Matches reserved start before (state.set item v) :=
    hm.hide (fun other ho heq => hu (.inr ⟨other, ho, heq.symm⟩)) v
  obtain ⟨tr', state', truths', hx, hm', hk⟩ := hb h ho (hm₁.assign hr hi v) hc
  exact ⟨_, state', truths', .cons hline hx, hm', hk, trivial⟩

/-- With an `else`, the mark is set at the start of every iteration, and nothing inside changes it.
-/
theorem iterates_marked {name : String} (hi : Inside own inner name) {lines : Block}
    (hb : Iterates R reserved flags start inner id item (fun _ => True)
      (fun _ => True) body lines) :
    Iterates R reserved flags start own id item (fun f => (f name).isSome = true)
      (fun f => f name = some true) body (setMark name true :: lines) := by
  intro before after state v tr o truths h ho hm hc hd
  have hnone : (none : Option String) ≠ some name := nofun
  have hset : Keeps True own none truths (.normal : Outcome Empty) (truths.set name true) :=
    .set hi.owned hnone true nofun
  obtain ⟨tr', state', truths', hx, hm', hk, -⟩ := hb h ho hm ((hc.keeps hset).inside hi) trivial
  refine ⟨_, state', truths', .cons (exec_setMark (m := R.machine) _ hd true) hx, hm',
    hset.trans (fun _ => nofun) (hk.widen hi.within), ?_⟩
  exact (hk.others name hi.apart nofun).trans (truths.set_self name true)

/-- The iterations of a loop over elements, one after the other. -/
theorem exec_each {P Q : Flags → Prop} (hQ : ∀ f, Q f → P f) {lines : Block}
    (hit : Iterates R reserved flags start own id item P Q body lines) {values : List R.Value}
    {before after state : Store R.Value} {tr : List Empty} {o : Outcome Empty} {truths : Flags}
    (h : Runs R.meaning (.each (.name id) values body) before tr o after) (ho : o ≠ .cut)
    (hm : Matches reserved start before state)
    (hc : (loopBody names reserved flags).Clear own none truths) (hP : P truths) :
    ∃ tr' state' truths', Exec R.machine (.each item values lines)
      ⟨state, truths⟩ tr' o ⟨state', truths'⟩ ∧
      Matches reserved start after state' ∧ Keeps True own none truths o truths' ∧
      (values = [] ∧ truths' = truths ∨ Q truths') := by
  -- an iteration leaves `Q`, so that the next one finds `P`
  induction values generalizing before state tr truths with
  | nil =>
    cases h with
    | cut => exact absurd rfl ho
    | cutEnd => exact absurd rfl ho
    | eachEnds => exact ⟨[], state, truths, .eachEnds _ _ _, hm, .refl nofun, .inl ⟨rfl, rfl⟩⟩
  | cons v values ih =>
    cases h with
    | cut => exact absurd rfl ho
    | cutEnd => exact absurd rfl ho
    | eachNext hbind hbody hgo hrest =>
      cases hbind
      have hbroke := Outcome.ne_broke_of_goesOn hgo
      obtain ⟨tr₁, state₁, truths₁, hx, hm₁, hk₁, hq⟩ :=
        hit hbody (Outcome.ne_cut_of_goesOn hgo) hm hc hP
      obtain ⟨tr₂, state₂, truths₂, hy, hm₂, hk₂, hend⟩ := ih hrest hm₁ (hc.keeps hk₁) (hQ _ hq)
      refine ⟨_, state₂, truths₂, .eachNext hx hgo hy, hm₂,
        hk₁.trans (fun _ => hbroke) hk₂, .inr ?_⟩
      rcases hend with ⟨-, rfl⟩ | hend
      · exact hq
      · exact hend
    | eachStops hbind hbody hgo =>
      cases hbind
      obtain ⟨tr₁, state₁, truths₁, hx, hm₁, hk₁, hq⟩ := hit hbody ho hm hc hP
      exact ⟨_, state₁, truths₁, .eachStops hx hgo, hm₁, hk₁, .inr hq⟩

theorem leads_for (hu : ¬(loopBody names reserved flags).User item) (hf : PlainLoop target iter)
    (hr : ∀ id ∈ target.boundNames, id ∈ reserved) (hl : LowersExpr names none iter iter')
    (ht : LowersTarget names none target target')
    (hb : Leads R reserved flags start own none (.block body) (.block body')) :
    Leads R reserved flags start own mark (.stmt (.forLoop target iter body none false))
      (.block [.forEach false item iter' (.assign target' (.name item) :: body')]) := by
  obtain ⟨hi, hp⟩ := hf
  obtain rfl := lowersExpr_list hp hl
  obtain rfl := lowersTarget_name ht
  have hid := hr _ List.mem_cons_self
  intro before after state tr o truths h ho hm hc
  cases h with
  | cut => exact absurd rfl ho
  | cutEnd => exact absurd rfl ho
  | simple hk => cases hk
  | forRaises he =>
    obtain ⟨_, -, hresult, -⟩ := he
    cases hresult
  | forLoop he h =>
    obtain ⟨rfl, he'⟩ := elements_list hp he hm
    obtain ⟨tr', state', truths', hx, hm', hk, -⟩ := exec_each (fun _ _ => trivial)
      (iterates_plain hu hid hi hb) h (Outcome.ne_cut_of_afterLoop ho) hm hc.unmarked trivial
    exact ⟨tr', state', truths', .singleton (.forEach rfl he' hx), hm', hk.loop hc⟩

/-- The mark is cleared before the loop. Behind it, it is set exactly if there was an element. -/
theorem leads_forElse {name : String} (hu : ¬(loopBody names reserved flags).User item)
    (hn : Inside own inner name) (hf : PlainLoop target iter)
    (hr : ∀ id ∈ target.boundNames, id ∈ reserved)
    (hl : LowersExpr names none iter iter') (ht : LowersTarget names none target target')
    (hb : Leads R reserved flags start inner none (.block body) (.block body'))
    (he : Leads R reserved flags start inner mark (.block orelse) (.block orelse')) :
    Leads R reserved flags start own mark (.stmt (.forLoop target iter body (some orelse) false))
      (.block [.flag name false,
        .forEach false item iter' (setMark name true :: .assign target' (.name item) :: body'),
        guarded (.unary .not (.name name)) orelse']) := by
  obtain ⟨hi, hp⟩ := hf
  obtain rfl := lowersExpr_list hp hl
  obtain rfl := lowersTarget_name ht
  have hid := hr _ List.mem_cons_self
  intro before after state tr o truths h ho hm hc
  have hset : Keeps True own mark truths (.normal : Outcome Empty) (truths.set name false) :=
    .set hn.owned (hc.mark_ne hn.owned) false nofun
  have hc₁ := hc.keeps hset
  have hfalse := truths.set_self name false
  cases h with
  | cut => exact absurd rfl ho
  | cutEnd => exact absurd rfl ho
  | simple hk => cases hk
  | forRaises he =>
    obtain ⟨_, -, hresult, -⟩ := he
    cases hresult
  | forElse hlist h =>
    -- without an element the mark stays cleared
    obtain ⟨rfl, hlist'⟩ := elements_list hp hlist hm
    obtain ⟨tr₂, state₂, truths₂, hy, hm₂, hk₂⟩ := he h ho hm (hc₁.inside hn)
    have htest : Tests R.machine (.unary .not (.name name)) ⟨state, truths.set name false⟩ []
        (.ok !false) state := .notFlag hfalse
    have hguard := Exec.guard_taken htest hy
    exact ⟨_, state₂, truths₂, .cons (.flag name false _)
      (.cons (.forEach rfl hlist' (.eachEnds _ _ _)) (.singleton hguard)), hm₂,
      hset.trans (fun _ => nofun) (hk₂.widen hn.within)⟩
  | @forRan _ _ _ _ _ _ _ _ v values _ o₁ hlist h =>
    obtain ⟨rfl, hlist'⟩ := elements_list hp hlist hm
    have hdeclared : ((truths.set name false) name).isSome = true := by
      rw [hfalse]
      rfl
    obtain ⟨tr₁, state₁, truths₁, hx, hm₁, hk₁, ⟨hnil, -⟩ | htrue⟩ := exec_each
      (fun f hf => by rw [hf]; rfl) (iterates_marked hn (iterates_plain hu hid hi hb)) h
      (Outcome.ne_cut_of_afterLoop ho) hm hc₁.unmarked hdeclared
    · cases hnil
    · -- the first iteration has set the mark, and no later one clears it
      have hk := hset.trans (fun _ => nofun) (hk₁.loop hc₁)
      have htest :
          Tests R.machine (.unary .not (.name name)) ⟨state₁, truths₁⟩ [] (.ok !true) state₁ :=
        .notFlag htrue
      have hguard : Exec R.machine (.stmt (guarded (.unary .not (.name name)) orelse'))
          ⟨state₁, truths₁⟩ [] .normal ⟨state₁, truths₁⟩ := .guard_skipped htest
      have hloop : Exec R.machine (.stmt (.forEach false item _ _))
          ⟨state, truths.set name false⟩ tr₁ o₁.afterLoop ⟨state₁, truths₁⟩ :=
        .forEach rfl hlist' hx
      cases o₁ with
      | normal | broke =>
        exact ⟨_, state₁, truths₁,
          .cons (.flag name false _) (.cons hloop (.singleton hguard)), hm₁, hk⟩
      | _ => exact ⟨_, state₁, truths₁, .cons (.flag name false _) (.stop hloop nofun), hm₁, hk⟩

end

/-! ## Whole bodies -/

mutual

theorem leads_stmt {own : String → Prop} {mark : Option String} {kind : Python.StmtKind}
    {lines : Block} (h : (loopBody names reserved flags).Emits own mark kind lines) :
    Leads R reserved flags start own mark (.stmt kind) (.block lines) :=
  match h with
  | .simple hs _ hr hl _ => leads_plain hs hr hl
  | .break_ => leads_break
  | .breakMarked name => leads_breakMarked name
  | .continue_ => leads_continue
  | .ifChain hb ho => leads_ifChain (leads_branches hb (leads_orelse ho))
  | .whileLoop ht hl hb => leads_while ht hl (leads_block hb)
  | .whileElse hi ht hl hb ho => leads_whileElse hi ht hl (leads_block hb) (leads_block ho)
  | .forLoop hu hf hr hl ht hb => leads_for hu hf hr hl ht (leads_block hb)
  | .forElse hu hi hf hr hl ht hb ho =>
    leads_forElse hu hi hf hr hl ht (leads_block hb) (leads_block ho)
  | .tryBlock ht _ _ _ _ _ _ => ht.elim

theorem leads_block {own : String → Prop} {mark : Option String} {body : List Python.Stmt}
    {lines : Block} (h : (loopBody names reserved flags).EmitsBlock own mark body lines) :
    Leads R reserved flags start own mark (.block body) (.block lines) :=
  match h with
  | .nil => leads_nil
  | .cons hs hr => leads_cons (leads_stmt hs) (leads_block hr)

theorem leads_branches {own : String → Prop} {mark : Option String} {branches : List Python.Branch}
    {branches' : List CSharp.Branch} {orelse : Option (List Python.Stmt)} {orelse' : Option Block}
    (h : (loopBody names reserved flags).EmitsBranches own mark branches branches')
    (ho : Leads R reserved flags start own mark (.branches [] orelse) (.branches [] orelse')) :
    Leads R reserved flags start own mark (.branches branches orelse)
      (.branches branches' orelse') :=
  match h with
  | .nil => ho
  | .cons ht hl hb hr => leads_branch ht hl (leads_block hb) (leads_branches hr ho)

theorem leads_orelse {own : String → Prop} {mark : Option String}
    {orelse : Option (List Python.Stmt)}
    {orelse' : Option Block}
    (h : (loopBody names reserved flags).EmitsOption own mark orelse orelse') :
    Leads R reserved flags start own mark (.branches [] orelse) (.branches [] orelse') :=
  match h with
  | .none => leads_noElse
  | .some hb => leads_else (leads_block hb)

end

end

/-- Conditionals and loops keep their meaning, in any nesting. The code for a module of assignments,
`if`, `while`, `for`, `break`, `continue` and `pass` is the print of C# statements that run to their
end whenever the module does, and then in one way only, with the values of the module in its
variables. Variables that the module leaves without a value are not touched. -/
theorem loops_preserve_meaning (options : Options) (source : Python.Module)
    (hb : ∀ s ∈ source.body, loopFragment.Builds s.kind) :
    ∃ (file : CSharp.File) (diagnostics : List Diagnostic),
      lower options source = .ok ⟨Layout.printAll options.indentWidth 0 file.layout, diagnostics⟩ ∧
      ∀ (R : Runtime options.library) {tr : List Empty} {store : Store R.Value},
        Runs R.meaning (.block source.body) (fun _ => none) tr .normal store →
        ∀ (start : Store R.Value) (flags : Flags), (∀ x, (flags x).isSome = true ↔ x ∈ file.flags) →
          ∃ tr' state flags', Exec R.machine (.block file.body) ⟨start, flags⟩ tr' .normal
            ⟨state, flags'⟩ ∧ Sole (.block file.body) ⟨start, flags⟩ tr' .normal ⟨state, flags'⟩ ∧
            ∀ id ∈ Python.boundIn source.body,
              state (escapeIdentifier id) = (store id).or (start (escapeIdentifier id)) := by
  obtain ⟨file, after, hrun, own, hemits, hown, hflags⟩ :=
    Body.module_emitted (fun _ => plain_isSimple) options.library hb
  refine ⟨file, after.diagnostics, lower_run hrun, ?_⟩
  intro R tr store h start flags hd
  obtain ⟨tr', state, flags', hexec, hmatch, -⟩ :=
    leads_block hemits h nofun (.refl _ start) (.start hown hflags hd)
  refine ⟨tr', state, flags', hexec, hexec.sole R.machine_deterministic nofun, ?_⟩
  intro id hid
  exact hmatch.value id (List.mem_append_left _ hid) (isIdentifier_boundIn hb id hid)

/-- The values of expressions of truth values. -/
def truthOf (store : Store Bool) : Python.Expr → Option Bool
  | .name id => store id
  | .bool value => some value
  | .unary .not e => (truthOf store e).map (!·)
  | _ => none

/-- The values of C# expressions of truth values. -/
def truthOfTree (store : Store Bool) : CSharp.Expr → Option Bool
  | .name x => store x
  | .literal text =>
      if text = "true" then some true else if text = "false" then some false else none
  | .unary .not e => (truthOfTree store e).map (!·)
  | _ => none

theorem truthOfTree_tree {names : LibraryNames} {e : Python.Expr} {before after : Store Bool}
    {value : Bool}
    (he : OperatorExpr e) (hs : ∀ id v, before id = some v → after (escapeIdentifier id) = some v)
    (h : truthOf before e = some value) : truthOfTree after (tree names none e) = some value := by
  induction he generalizing value with
  | name _ => exact hs _ _ h
  | bool b => cases b <;> exact h
  | unary op _ ih =>
    cases op with
    | not =>
      obtain ⟨v, hv, rfl⟩ := Option.map_eq_some_iff.1 h
      show (truthOfTree after _).map _ = _
      rw [ih hv]
      rfl
    | _ => cases h
  | _ => cases h

/-- A runtime that knows truth values only. -/
def truthRuntime (names : LibraryNames) : Runtime names where
  Value := Bool
  truth := some
  python e store := truthOf store e
  csharp e store := truthOfTree store e
  python_name _ _ := rfl
  python_not id store h := by
    rw [truthOf, Option.isSome_map] at h
    exact h
  csharp_name _ _ := rfl
  agree he hs h := truthOfTree_tree he.operators hs h

/-- Leaves the loop around if the item is true. -/
def leaveIfItem : List Python.Stmt :=
  [⟨.ifChain [⟨.name "item", [⟨.breakStmt, ⟨5, 13⟩⟩]⟩] none, ⟨4, 9⟩⟩]

/-- Looks for a true item. -/
def searchItems : List Python.Stmt :=
  [⟨.forLoop (.name "item") (.list [.bool false, .bool true]) leaveIfItem
      (some [⟨.assign [.name "item"] (.bool false), ⟨7, 9⟩⟩]) false, ⟨3, 5⟩⟩,
    ⟨.assign [.name "found"] (.name "item"), ⟨8, 5⟩⟩]

/-- Searches until something is found. -/
def searchLoop : Python.Module :=
  ⟨[⟨.assign [.name "found"] (.bool false), ⟨1, 1⟩⟩,
    ⟨.whileLoop (.unary .not (.name "found")) searchItems
      (some [⟨.assign [.name "out"] (.name "found"), ⟨10, 5⟩⟩]), ⟨2, 1⟩⟩]⟩

theorem searchLoop_builds : ∀ s ∈ searchLoop.body, loopFragment.Builds s.kind := by
  have hpure (id : String) (hi : isIdentifier id.toList = true) : IsPure (.name id) :=
    ⟨.name hi, rfl⟩
  have hbool (value : Bool) : IsPure (.bool value) := ⟨.bool value, rfl⟩
  have hassign {id : String} {value : Python.Expr} (hi : isIdentifier id.toList = true)
      (hv : IsPure value) : loopFragment.Builds (.assign [.name id] value) := by
    have hplain : PlainStatement (.assign ([id].map .name) value) :=
      .assign (by simp) (by simpa using hi) hv
    exact .simple hplain
  have hitems : ∀ e ∈ [Python.Expr.bool false, .bool true], IsPure e := by simp [hbool]
  have hsearch : ∀ s ∈ searchItems, loopFragment.Builds s.kind := by
    refine List.forall_mem_cons.2 ⟨?_,
      List.forall_mem_singleton.2 (hassign (by decide) (hpure _ (by decide)))⟩
    refine .forLoop (.intro (by decide) hitems) ?_ ?_
    · refine List.forall_mem_singleton.2 (.ifChain (by simp) ?_ ?_ nofun)
      · exact List.forall_mem_singleton.2 (hpure _ (by decide))
      · exact List.forall_mem_singleton.2 (List.forall_mem_singleton.2 .break_)
    · rintro block ⟨⟩
      exact List.forall_mem_singleton.2 (hassign (by decide) (hbool false))
  refine List.forall_mem_cons.2 ⟨hassign (by decide) (hbool false), List.forall_mem_singleton.2 ?_⟩
  refine .whileLoop ⟨.unary .not (.name (by decide)), rfl⟩ hsearch ?_
  rintro block ⟨⟩
  exact List.forall_mem_singleton.2 (hassign (by decide) (hpure _ (by decide)))

theorem searchLoop_runs : ∃ tr store,
    Runs (truthRuntime {}).meaning (.block searchLoop.body) (fun _ => none) tr .normal store ∧
      store "out" = some true := by
  let M := (truthRuntime {}).meaning
  let first : Store Bool := Store.set (fun _ => none) "found" false
  let second := first.set "item" false
  let third := second.set "item" true
  let fourth := third.set "found" true
  have htest {e : Python.Expr} {s : Store Bool} {value : Bool} (h : truthOf s e = some value) :
      M.test e s [] (.ok value) s := by
    refine ⟨value, ?_, rfl, rfl, rfl⟩
    show (truthOf s e).bind some = some value
    rw [h]
    rfl
  have hassign {id : String} {e : Python.Expr} {s : Store Bool} {value : Bool}
      (h : truthOf s e = some value) :
      Runs M (.stmt (.assign [.name id] e)) s [] .normal (s.set id value) := by
    refine .simple rfl ⟨?_, rfl, rfl⟩
    show (truthOf s e).bind
      (fun v => [Python.Expr.name id].foldlM ((truthRuntime {}).assignTo v) s) = _
    rw [h]
    rfl
  have hfalse : M.test (.name "item") second [] (.ok false) second := htest (by decide)
  have htrue : M.test (.name "item") third [] (.ok true) third := htest (by decide)
  have hstays : Runs M (.block leaveIfItem) second _ .normal second :=
    .cons (.ifChain (.skipped hfalse (.noElse _))) (.nil _)
  have hleaves : Runs M (.block leaveIfItem) third _ .broke third :=
    .stop (.ifChain (.taken htrue (.stop (.break_ _) nofun))) nofun
  have hlist : M.elements (.list [.bool false, .bool true]) first (.ok [false, true]) first :=
    ⟨_, rfl, rfl, rfl⟩
  have heach : Runs M (.each (.name "item") [false, true] leaveIfItem) first _ .broke third :=
    .eachNext rfl hstays rfl (.eachStops rfl hleaves rfl)
  have hfound : Runs M (.stmt (.assign [.name "found"] (.name "item"))) third [] .normal fourth :=
    hassign (by decide)
  have hsearch : Runs M (.block searchItems) first _ .normal fourth :=
    .cons (.forRan hlist heach) (.cons hfound (.nil _))
  have hagain : M.test (.unary .not (.name "found")) first [] (.ok true) first := htest (by decide)
  have hdone : M.test (.unary .not (.name "found")) fourth [] (.ok false) fourth :=
    htest (by decide)
  have hout : Runs M (.stmt (.assign [.name "out"] (.name "found"))) fourth [] .normal
      (fourth.set "out" true) := hassign (by decide)
  exact ⟨_, fourth.set "out" true, .cons (hassign rfl) (.cons (.whileElse
    (.loopNext hagain hsearch rfl (.loopEnds hdone)) (.cons hout (.nil _))) (.nil _)),
      fourth.set_self _ _⟩

theorem searchLoop_preserved : (∀ s ∈ searchLoop.body, loopFragment.Builds s.kind) ∧
    ∃ (file : CSharp.File) (diagnostics : List Diagnostic) (flags : Flags),
      lower {} searchLoop = .ok ⟨Layout.printAll 4 0 file.layout, diagnostics⟩ ∧
        ∃ tr state flags', Exec (truthRuntime {}).machine (.block file.body)
          ⟨fun _ => none, flags⟩ tr .normal ⟨state, flags'⟩ ∧ state "@out" = some true := by
  obtain ⟨file, diagnostics, hlower, hruns⟩ :=
    loops_preserve_meaning {} searchLoop searchLoop_builds
  obtain ⟨tr, store, hrun, hout⟩ := searchLoop_runs
  let flags : Flags := fun x => if x ∈ file.flags then some false else none
  have hd : ∀ x, (flags x).isSome = true ↔ x ∈ file.flags := by simp [flags]
  obtain ⟨tr', state, flags', hexec, -, hstate⟩ :=
    hruns (truthRuntime {}) hrun (fun _ => none) flags hd
  refine ⟨searchLoop_builds, file, diagnostics, flags, hlower, tr', state, flags', hexec, ?_⟩
  have hvalue : state "@out" = (store "out").or none := hstate "out" (by decide)
  rw [hvalue, hout]
  rfl

end PythonToCSharp.Lowering
