import PythonToCSharp.Proofs.Findings.Heads
import PythonToCSharp.Proofs.Lowering.Balance

/-!
Every finding about a module stands where its construct stands.

`Finds` is said of a step in a body with a given context. It relates the place before the step to
that behind it, either of which may be unknown: a statement comes back to the place where it began,
whatever it was, but `except` clauses and cases move on to their own places and do not come back. So
what is lowered behind them must not depend on the place, and it does not, since only statements
follow.
-/

namespace PythonToCSharp.Scope

/-- Whether a `break` leaves a `match`. -/
def BreakTarget.isSwitch : BreakTarget → Bool
  | .switch => true
  | .loop _ => false

namespace Frame

/-- The context that a frame is for the statements of its body. -/
def context (frame : Frame) : Context :=
  ⟨frame.kind, frame.isGenerator, frame.breakTarget?.any BreakTarget.isSwitch⟩

theorem Grows.context_eq {before after : Frame} (h : before.Grows after) :
    after.context = before.context := by
  simp only [context, breakTarget?, h.kind, h.isGenerator, h.breakTargets]

theorem context_enterTry (frame : Frame) : frame.enterTry.2.context = frame.context :=
  frame.grows_enterTry.context_eq

end Frame

end PythonToCSharp.Scope

namespace PythonToCSharp.Lowering

open Python (Construct Notice placed placed_append noticesBlock noticesOptional noticesBranches
  noticesHandlers noticesCases)
open Scope (Frame Context Stack)

variable {α β : Type} {names : LibraryNames} {context inner : Context} {place : Python.Span}
variable {here before middle after : Option Python.Span} {found first rest : List Notice}

/-- The state is at the place, if that is known. -/
def State.IsAt (place : Option Python.Span) (s : State) : Prop :=
  ∀ span ∈ place, s.span = span

theorem State.isAt_unknown (s : State) : s.IsAt none :=
  fun _ h => nomatch h

theorem State.isAt_some {s : State} : s.IsAt (some place) ↔ s.span = place := by
  simp [State.IsAt]

theorem State.IsAt.of_span_eq {s later : State} (h : s.IsAt here) (hspan : later.span = s.span) :
    later.IsAt here :=
  fun span hmem => hspan.trans (h span hmem)

theorem State.Grows.context_eq {s later : State} (h : s.Grows later) :
    later.scopes.current.context = s.scopes.current.context :=
  h.scopes.current.context_eq

/-- In every body with the context, the step succeeds, lets frames grow, leads from one place to
another and reports what the notices say, in their order. -/
def Finds (names : LibraryNames) (context : Context) (before after : Option Python.Span)
    (found : List Notice) (step : Lower α) : Prop :=
  ∀ s, s.scopes.current.context = context → s.IsAt before → ∃ a later added,
    step s = .ok (a, later) ∧ s.Grows later ∧ later.IsAt after ∧
      later.diagnostics = s.diagnostics ++ added ∧ List.Forall₂ (Reports names) found added

namespace Finds

theorem pure (a : α) : Finds names context here here [] (Pure.pure a : Lower α) :=
  fun s _ hat => ⟨a, s, [], rfl, .refl s, hat, (List.append_nil _).symm, .nil⟩

theorem bind {x : Lower α} {f : α → Lower β} (hx : Finds names context before middle first x)
    (hf : ∀ a, Finds names context middle after rest (f a)) :
    Finds names context before after (first ++ rest) (x >>= f) := by
  intro s hs hat
  obtain ⟨a, s', added, hrun, hg, hat', hadded, hfirst⟩ := hx s hs hat
  -- frames only grow, so the second step finds the context of the first
  obtain ⟨b, s'', more, hrun', hg', hat'', hmore, hrest⟩ := hf a s' (hg.context_eq.trans hs) hat'
  refine ⟨b, s'', added ++ more, (bind_run hrun).trans hrun', hg.trans hg', hat'', ?_,
    List.rel_append hfirst hrest⟩
  rw [hmore, hadded, List.append_assoc]

/-- A step that reports nothing comes first. -/
theorem silent {x : Lower α} {f : α → Lower β} (hx : Finds names context before middle [] x)
    (hf : ∀ a, Finds names context middle after rest (f a)) :
    Finds names context before after rest (x >>= f) :=
  bind hx hf

theorem map {x : Lower α} (hx : Finds names context before after found x) (f : α → β) :
    Finds names context before after found (do return f (← x)) := by
  intro s hs hat
  obtain ⟨a, later, added, hrun, hrest⟩ := hx s hs hat
  exact ⟨f a, later, added, bind_run hrun, hrest⟩

theorem of_eq {x : Lower α} (hx : Finds names context before after first x) (h : first = rest) :
    Finds names context before after rest x :=
  h ▸ hx

/-- The place behind a step need not be known. -/
theorem forget {x : Lower α} (hx : Finds names context before after found x) :
    Finds names context before none found x := by
  intro s hs hat
  obtain ⟨a, later, added, hrun, hg, -, hadded, hfound⟩ := hx s hs hat
  exact ⟨a, later, added, hrun, hg, later.isAt_unknown, hadded, hfound⟩

/-- A step that lowers an expression or a head reports where the state is. -/
theorem liftAt {reported : List Construct} {x : Render α} (hx : Notes names reported x)
    (h : ∀ s : State, s.IsAt here → placed s.span reported = found) :
    Finds names context here here found (liftM x : Lower α) := by
  intro s _ hat
  obtain ⟨hg, hspan⟩ := hx.keepsPlace s
  obtain ⟨added, hadded, hfound⟩ := hx.findings s
  rw [h s hat] at hfound
  exact ⟨(x s).1, (x s).2, added, rfl, hg, hat.of_span_eq hspan, hadded, hfound⟩

theorem lift {reported : List Construct} {x : Render α} (hx : Notes names reported x) :
    Finds names context (some place) (some place) (placed place reported) (liftM x : Lower α) :=
  liftAt hx fun _ hat => by rw [State.isAt_some.1 hat]

/-- A step that reports nothing may stand at any place. -/
theorem liftQuiet {x : Render α} (hx : Notes names [] x) :
    Finds names context here here [] (liftM x : Lower α) :=
  liftAt hx fun _ _ => rfl

/-- A statement without blocks. -/
theorem simple {reported : List Construct} {x : Render α} (hx : Notes names reported x) :
    Finds names context (some place) none (placed place reported) (liftM x : Lower α) :=
  (lift hx).forget

/-- What a step reports may depend on the context, which the innermost frame tells. -/
theorem reading {reported : List Construct} {f : Frame → Render α}
    (h : ∀ frame, frame.context = context → Notes names reported (f frame)) :
    Finds names context (some place) (some place) (placed place reported)
      (liftM (currentFrame >>= f) : Lower α) :=
  fun s hs hat => lift (h s.scopes.current hs) s hs hat

theorem moveTo (span : Python.Span) :
    Finds names context before (some span) [] (liftM (Lowering.moveTo span) : Lower Unit) :=
  fun s _ _ => ⟨(), { s with span := span }, [], rfl, ⟨rfl, .refl s.scopes⟩, State.isAt_some.2 rfl,
    (List.append_nil _).symm, .nil⟩

/-- A statement reports at its own place and comes back to the one before. -/
theorem located {span : Python.Span} {step : Lower α}
    (h : Finds names context (some span) after found step) :
    Finds names context here here found (located span step) := by
  intro s hs hat
  obtain ⟨a, later, added, hrun, hg, -, hadded, hfound⟩ :=
    h { s with span := span } hs (State.isAt_some.2 rfl)
  exact ⟨a, { later with span := s.span }, added, located_eq hrun, ⟨hg.classNames, hg.scopes⟩, hat,
    hadded, hfound⟩

/-- A step in a frame that is changed before it and set right behind it. -/
theorem bracket {step : Lower α} (h : Finds names inner before after found step)
    (enter leave : Frame → Frame)
    (hinner : ∀ frame : Frame, frame.context = context → (enter frame).context = inner)
    (hleave : ∀ frame frame' : Frame, (enter frame).Grows frame' → frame.Grows (leave frame'))
    {s : State} (hs : s.scopes.current.context = context) (hat : s.IsAt before) :
    ∃ a last added, step { s with scopes := s.scopes.modifyCurrent enter } = .ok (a, last) ∧
      s.Grows { last with scopes := last.scopes.modifyCurrent leave } ∧ last.IsAt after ∧
      last.diagnostics = s.diagnostics ++ added ∧ List.Forall₂ (Reports names) found added := by
  have hentered : (s.scopes.modifyCurrent enter).current.context = inner := by
    rw [Stack.current_modifyCurrent]
    exact hinner _ hs
  obtain ⟨a, last, added, hrun, hg, hat', hadded, hfound⟩ :=
    h { s with scopes := s.scopes.modifyCurrent enter } hentered hat
  have hscopes : (s.scopes.modifyCurrent enter).Grows last.scopes := hg.scopes
  exact ⟨a, last, added, hrun, ⟨hg.classNames, hscopes.bracket (hleave _)⟩, hat', hadded, hfound⟩

theorem breakable {target : Scope.BreakTarget} {step : Lower α}
    (h : Finds names { context with inSwitch := target.isSwitch } before after found step) :
    Finds names context before after found (breakable target step) := by
  intro s hs hat
  obtain ⟨a, last, added, hrun, hg, hat', hadded, hfound⟩ :=
    h.bracket (·.pushBreakTarget target) (·.popBreakTarget)
    (fun frame hframe => by rw [← hframe]; rfl) (fun _ _ hf => hf.popBreakTarget) hs hat
  refine ⟨a, _, added, ?_, hg, hat', hadded, hfound⟩
  rw [Lowering.breakable, lift_bind_run]
  exact bind_run hrun

end Finds

/-- The same of a step that may be missing, and then nothing is reported. -/
def OptionallyFinds (names : LibraryNames) (context : Context) (here : Option Python.Span)
    (found : List Notice) : Option (Lower α) → Prop
  | none => found = []
  | some step => Finds names context here here found step

theorem OptionallyFinds.optionally {step : Option (Lower α)}
    (h : OptionallyFinds names context here found step) :
    Finds names context here here found (optionally step) := by
  cases step with
  | none => exact (Finds.pure _).of_eq h.symm
  | some step => exact Finds.map h _

/-! ## Statements that depend on their context -/

theorem finds_lowerBreak :
    Finds names context (some place) (some place)
      (placed place (Python.StmtKind.breakStmt.reported context))
      (liftM lowerBreak : Lower Block) := by
  refine .reading fun frame hframe => ?_
  subst hframe
  show Notes names (if frame.breakTarget?.any Scope.BreakTarget.isSwitch then
    [.stmt .breakStmt] else []) _
  cases frame.breakTarget? with
  | none => exact .pure _
  | some target =>
    cases target with
    | loop mark => cases mark <;> exact .pure _
    | switch => exact .cons (notes_warn .breakStmt rfl) fun _ => .pure _

theorem finds_lowerReturn (value : Option Python.Expr) :
    Finds names context (some place) (some place)
      (placed place ((Python.StmtKind.returnStmt value).reported context))
      (liftM (lowerReturn names value) : Lower Block) := by
  refine .reading fun frame hframe => ?_
  subst hframe
  show Notes names (if frame.isGenerator then _ else _) _
  by_cases hyields : frame.isGenerator = true
  · rw [if_pos hyields, if_pos hyields]
    cases value with
    | none => exact .pure _
    | some value => exact .cons (notes_warn (.returnedValue value) rfl) fun _ => .pure _
  · rw [if_neg hyields, if_neg hyields]
    exact .map (notes_lowerOption names value) _

/-! ## Compound statements -/

section Compound

variable {body : Lower Block} {orelse finalbody : Option (Lower Block)}
variable {bodyFound elseFound finalFound : List Notice}

theorem finds_lowerWhile {test : Python.Expr}
    (hb : Finds names context.inLoop (some place) (some place) bodyFound body)
    (he : OptionallyFinds names context (some place) elseFound orelse) :
    Finds names context (some place) (some place)
      (placed place test.reported ++ (bodyFound ++ elseFound))
      (lowerWhile names test body orelse) := by
  have htest : Finds names context (some place) (some place) (placed place test.reported)
      (liftM (lowerExpr names test) : Lower CSharp.Expr) := .lift (notes_lowerExpr names test)
  cases orelse with
  | none =>
    have hnone : elseFound = [] := he
    rw [hnone, List.append_nil]
    exact .bind htest fun _ => .map (.breakable hb) _
  | some orelse =>
    refine .silent (.liftQuiet (notes_fresh "noBreak")) fun mark => .bind htest fun _ => ?_
    exact .bind (.breakable hb) fun _ => .map he _

theorem finds_lowerForEach {isAsync : Bool} {target iter : Python.Expr} {start : Block}
    (hb : Finds names context.inLoop (some place) (some place) bodyFound body) :
    Finds names context (some place) (some place)
      (placed place (iter.reported ++ target.reportedTarget) ++ bodyFound)
      (lowerForEach names isAsync target iter start body) := by
  rw [placed_append, List.append_assoc]
  refine .silent (.liftQuiet (notes_recordTarget target)) fun _ => ?_
  refine .bind (.lift (notes_lowerExpr names iter)) fun _ =>
    .silent (.liftQuiet (notes_fresh "_it")) fun _ => ?_
  exact .bind (.lift (notes_lowerTarget names target)) fun _ => .map (.breakable hb) _

theorem finds_lowerFor {isAsync : Bool} {target iter : Python.Expr}
    (hb : Finds names context.inLoop (some place) (some place) bodyFound body)
    (he : OptionallyFinds names context (some place) elseFound orelse) :
    Finds names context (some place) (some place)
      (placed place (iter.reported ++ target.reportedTarget) ++ (bodyFound ++ elseFound))
      (lowerFor names isAsync target iter body orelse) := by
  rw [← List.append_assoc]
  cases orelse with
  | none =>
    have hnone : elseFound = [] := he
    rw [hnone, List.append_nil]
    exact .map (finds_lowerForEach hb) _
  | some orelse =>
    refine .silent (.liftQuiet (notes_fresh "loopExecuted")) fun mark => ?_
    exact .bind (finds_lowerForEach hb) fun _ => .map he _

/-- The parts of a `try`, in the order in which they are lowered. -/
def tryParts (body : Lower Block) (handlers : Lower (List CSharp.Catch))
    (orelse finalbody : Option (Lower Block)) :
    Lower (Block × List CSharp.Catch × Option Block × Option Block) := do
  let body ← body
  let catches ← handlers
  let cleanup ← optionally finalbody
  return (body, catches, cleanup, ← optionally orelse)

/-- A `try` lowers its parts one level of `try` deeper. -/
theorem lowerTry_of_run {handlers : Lower (List CSharp.Catch)} {s last : State}
    {parts : Block × List CSharp.Catch × Option Block × Option Block}
    (h : tryParts body handlers orelse finalbody
      { s with scopes := s.scopes.modifyCurrent (·.enterTry.2) } =
      .ok (parts, last)) : ∃ result, lowerTry body handlers orelse finalbody s =
        .ok (result, { last with scopes := last.scopes.modifyCurrent (·.exitTry) }) := by
  have henter : s.scopes.modifyCurrent (fun _ => s.scopes.current.enterTry.2) =
      s.scopes.modifyCurrent (·.enterTry.2) := s.scopes.modifyCurrent_congr rfl
  have hflag : enterTry s =
      (s.scopes.current.enterTry.1,
        { s with scopes := s.scopes.modifyCurrent (·.enterTry.2) }) := by
    rw [← henter]
    rfl
  have hparts : lowerTry body handlers orelse finalbody = (do
      let flag ← enterTry
      let lowered ← tryParts body handlers orelse finalbody
      modifyFrame (·.exitTry)
      return setMark flag false :: .tryCatch (lowered.1 ++ [setMark flag true]) lowered.2.1
        lowered.2.2.1 :: (lowered.2.2.2.map (guarded (.name flag))).toList) := by
    simp only [lowerTry, tryParts, bind_assoc, pure_bind]
  rw [hparts, lift_bind_run, hflag, bind_run h]
  exact ⟨_, rfl⟩

/-- The clauses of a `try` do not come back to its place, which nothing behind them needs. -/
theorem finds_lowerTry {handlers : Lower (List CSharp.Catch)} {handlersFound : List Notice}
    (hb : Finds names context here here bodyFound body)
    (hh : Finds names context here none handlersFound handlers)
    (he : OptionallyFinds names context none elseFound orelse)
    (hf : OptionallyFinds names context none finalFound finalbody) :
    Finds names context here none (bodyFound ++ (handlersFound ++ (finalFound ++ elseFound)))
      (lowerTry body handlers orelse finalbody) := by
  have hparts :
      Finds names context here none (bodyFound ++ (handlersFound ++ (finalFound ++ elseFound)))
      (tryParts body handlers orelse finalbody) :=
    .bind hb fun _ => .bind hh fun _ => .bind hf.optionally fun _ => .map he.optionally _
  intro s hs hat
  obtain ⟨parts, last, added, hrun, hg, hat', hadded, hfound⟩ :=
    hparts.bracket (·.enterTry.2) (·.exitTry)
      (fun frame hframe => frame.context_enterTry.trans hframe)
      (fun frame _ hf => (frame.grows_enterTry.trans hf).exitTry) hs hat
  obtain ⟨result, hwhole⟩ := lowerTry_of_run hrun
  exact ⟨result, _, added, hwhole, hg, hat', hadded, hfound⟩

theorem finds_lowerMatch {subject : Python.Expr} {sections : Lower (List CSharp.Section)}
    (h : Finds names context.inMatch (some place) none found sections) :
    Finds names context (some place) none (placed place subject.reported ++ found)
      (lowerMatch names subject sections) :=
  .bind (.lift (notes_lowerExpr names subject)) fun _ => .map (.breakable h) _

end Compound

/-! ## Definitions -/

theorem context_openFunction (definition : Python.FunctionDef) (receiver : Option String) :
    (openFunction definition receiver { kind := .function }).context =
      .ofFunction definition.body := by
  have hshape := shape_openFunction definition receiver
  simp only [Frame.shape, Prod.mk.injEq] at hshape
  obtain ⟨hkind, -, hgenerator, htargets, -⟩ := hshape
  simp only [Frame.context, Frame.breakTarget?, hkind, hgenerator, htargets]
  rfl

/-- The head of a definition is reported in the body around, and its body in one of its own. -/
theorem findings_of_body {γ : Type} {head : Render γ} {reported : List Construct}
    {body : Lower β} {b : β}
    {s inside last : State} (hrun : body inside = .ok (b, last))
    (hb : Finds names inner none none found body)
    (hinner : inside.scopes.current.context = inner) (hhead : Notes names reported head)
    (hinside : inside.diagnostics = (head s).2.diagnostics) :
    ∃ added, last.diagnostics = s.diagnostics ++ added ∧
      List.Forall₂ (Reports names) (placed s.span reported ++ found) added := by
  obtain ⟨added, hadded, hfirst⟩ := hhead.findings s
  obtain ⟨_, _, more, hrun', -, -, hmore, hrest⟩ := hb inside hinner inside.isAt_unknown
  obtain ⟨rfl, rfl⟩ := run_unique hrun hrun'
  refine ⟨added ++ more, ?_, List.rel_append hfirst hrest⟩
  rw [hmore, hinside, hadded, List.append_assoc]

theorem finds_lowerFunction {definition : Python.FunctionDef} {body : Lower Block}
    (hsucceeds : Succeeds body)
    (hb : Finds names (.ofFunction definition.body) none none found body) :
    Finds names context (some place) none
      (placed place (definition.reported (context.kind == .class_)) ++ found)
      (lowerFunction names definition body) := by
  intro s hs hat
  subst hs
  have hhead : Notes names (definition.reported (s.scopes.current.kind == .class_)) (do
      let _ ← lowerDecorators names
        (otherDecorators (s.scopes.current.kind == .class_) definition.decorators)
      lowerParams names (splitReceiver
        (roleOf (s.scopes.current.kind == .class_) definition.decorators) definition.params).2) :=
    .bind (notes_lowerDecorators names _) fun _ => notes_lowerParams names _
  have hall : Succeeds (lowerFunction names definition body) := succeeds_lowerFunction hsucceeds
  obtain ⟨lines, last, hrun, hwhole⟩ := lowerFunction_closed names definition hsucceeds s
  obtain ⟨_, _, hwhole', hg⟩ := hall s
  obtain ⟨rfl, rfl⟩ := run_unique hwhole hwhole'
  obtain ⟨added, hadded, hfound⟩ :=
    findings_of_body hrun hb (context_openFunction definition _) hhead rfl
  rw [State.isAt_some.1 hat] at hfound
  exact ⟨_, _, added, hwhole, hg, State.isAt_unknown _, hadded, hfound⟩

/-- What comes before the body of a class: a note if the class is moved out of a function, its
decorators and its bases. -/
def lowerClassHead (names : LibraryNames) (definition : Python.ClassDef) (inFunction : Bool) :
    Render (List CSharp.Expr) := do
  if inFunction then
    note "class_definition"
      ("class `" ++ definition.name ++ "` moved out of its enclosing function")
  let _ ← lowerDecorators names definition.decorators
  lowerBases names definition.name definition.bases

variable (names)

theorem notes_lowerClassHead (definition : Python.ClassDef) (inFunction : Bool) :
    Notes names (definition.reported inFunction) (lowerClassHead names definition inFunction) := by
  have hhead : Notes names (definition.decorators.flatMap Python.reportedDecorator ++
      definition.bases.flatMap (Python.reportedBase definition.name)) (do
        let _ ← lowerDecorators names definition.decorators
        lowerBases names definition.name definition.bases) :=
    .bind (notes_lowerDecorators names _) fun _ => notes_lowerBases names _ _
  cases inFunction with
  | true => exact .cons (notes_note (.movedClass definition) rfl) fun _ => hhead
  | false => exact hhead

theorem diagnostics_insideClass (definition : Python.ClassDef) (s : State) :
    (insideClass names definition s).diagnostics =
      (lowerClassHead names definition (s.scopes.current.kind == .function) s).2.diagnostics := by
  unfold insideClass classHead lowerClassHead
  cases s.scopes.current.kind == .function <;> rfl

theorem diagnostics_placeClass (nested : Bool) (type : CSharp.Class) (s : State) :
    (placeClass nested type s).2.diagnostics = s.diagnostics := by
  cases nested <;> rfl

theorem finds_lowerClass {definition : Python.ClassDef} {body : Lower ClassBody}
    (hsucceeds : Succeeds body) (hb : Finds names .ofClass none none found body) :
    Finds names context (some place) none
      (placed place (definition.reported (context.kind == .function)) ++ found)
      (lowerClass names definition body) := by
  intro s hs hat
  subst hs
  have hall : Succeeds (lowerClass names definition body) := succeeds_lowerClass hsucceeds
  obtain ⟨lowered, last, hrun, hwhole⟩ := lowerClass_closed names definition hsucceeds s
  obtain ⟨_, _, hwhole', hg⟩ := hall s
  obtain ⟨rfl, rfl⟩ := run_unique hwhole hwhole'
  obtain ⟨added, hadded, hfound⟩ :=
    findings_of_body hrun hb rfl (notes_lowerClassHead names definition _)
      (diagnostics_insideClass names definition s)
  rw [State.isAt_some.1 hat] at hfound
  exact ⟨_, _, added, hwhole, hg, State.isAt_unknown _,
    (diagnostics_placeClass _ _ _).trans hadded, hfound⟩

/-! ## Whole trees -/

/-- What is left out of a class has nothing to report. -/
theorem notices_of_nowhere {kind : Python.StmtKind} (h : memberPlace kind = .nowhere)
    (context : Context) (place : Python.Span) : kind.notices context place = [] := by
  unfold memberPlace at h
  split at h
  · rfl
  · rfl
  all_goals cases h

mutual

theorem finds_lowerStmt (context : Context) (here : Option Python.Span) :
    ∀ s : Python.Stmt, Finds names context here here (s.notices context) (lowerStmt names s)
  | ⟨kind, span⟩ => by
    rw [lowerStmt]
    exact (finds_lowerKind context span kind).located

theorem finds_lowerKind (context : Context) (place : Python.Span) :
    ∀ kind : Python.StmtKind, Finds names context (some place) none (kind.notices context place)
      (lowerKind names kind)
  | .expr value => .simple (notes_lowerExprStmt names value)
  | .assign targets value => .simple (notes_lowerAssign names targets value)
  | .annAssign target hint value => .simple (notes_lowerAnnAssign names target hint value)
  | .augAssign target op value => .simple (notes_lowerAugAssign names target op value)
  | .ifChain branches orelse => by
    rw [lowerKind]
    refine .bind (finds_lowerBranches context place branches) fun _ => ?_
    exact (Finds.map (finds_lowerOrelse context (some place) orelse).optionally _).forget
  | .whileLoop test body orelse => by
    rw [lowerKind]
    exact (finds_lowerWhile (finds_lowerBlock context.inLoop (some place) body)
      (finds_lowerOrelse context (some place) orelse)).forget
  | .forLoop target iter body orelse isAsync => by
    rw [lowerKind]
    exact (finds_lowerFor (finds_lowerBlock context.inLoop (some place) body)
      (finds_lowerOrelse context (some place) orelse)).forget
  | .tryBlock body handlers orelse finalbody => by
    rw [lowerKind]
    exact finds_lowerTry (finds_lowerBlock context (some place) body)
      (finds_lowerHandlers context (some place) handlers)
      (finds_lowerOrelse context none orelse) (finds_lowerOrelse context none finalbody)
  | .withBlock items body isAsync => by
    rw [lowerKind]
    refine .bind (.lift (notes_lowerResources names items)) fun _ => ?_
    exact (Finds.map (finds_lowerBlock context (some place) body) _).forget
  | .functionDef ⟨name, params, returns, body, decorators, isAsync⟩ => by
    rw [lowerKind]
    exact finds_lowerFunction (succeeds_lowerBlock names body)
      (finds_lowerBlock (.ofFunction body) none body)
  | .classDef ⟨name, bases, body, decorators⟩ => by
    rw [lowerKind]
    exact finds_lowerClass names (succeeds_lowerMembers names body)
      (finds_lowerMembers .ofClass none body)
  | .matchBlock subject cases => by
    rw [lowerKind]
    exact finds_lowerMatch (finds_lowerCases context.inMatch (some place) (isTuple subject) cases)
  | .returnStmt value => (finds_lowerReturn value).forget
  | .raiseStmt exc cause => .simple (notes_lowerRaise names exc cause)
  | .deleteStmt targets => .simple (notes_lowerDeletes names targets)
  | .assertStmt test msg => .simple (notes_lowerAssert names test msg)
  | .importStmt entries => .simple (notes_lowerImport names entries)
  | .importFrom path entries wildcard => .simple (notes_lowerImportFrom names path entries wildcard)
  | .globalStmt ids => .simple (notes_lowerGlobal names ids)
  | .nonlocalStmt ids => .simple (notes_lowerNonlocal names ids)
  | .passStmt => (Finds.pure _).forget
  | .breakStmt => finds_lowerBreak.forget
  | .continueStmt => (Finds.pure _).forget
  | .comment _ => (Finds.pure _).forget
  | .unsupported kind text => .simple (notes_lowerUnsupported names kind text)

theorem finds_lowerBlock (context : Context) (here : Option Python.Span) :
    ∀ body : List Python.Stmt, Finds names context here here (noticesBlock context body)
      (lowerBlock names body)
  | [] => .pure _
  | s :: rest => by
    rw [lowerBlock]
    exact .bind (finds_lowerStmt context here s) fun _ =>
      .map (finds_lowerBlock context here rest) _

theorem finds_lowerOrelse (context : Context) (here : Option Python.Span) :
    ∀ body : Option (List Python.Stmt),
      OptionallyFinds names context here (noticesOptional context body) (lowerOrelse names body)
  | none => rfl
  | some body => finds_lowerBlock context here body

theorem finds_lowerBranches (context : Context) (place : Python.Span) :
    ∀ branches : List Python.Branch, Finds names context (some place) (some place)
      (noticesBranches context place branches) (lowerBranches names branches)
  | [] => .pure _
  | ⟨test, body⟩ :: rest => by
    rw [lowerBranches]
    refine .bind (.lift (notes_lowerExpr names test)) fun _ => ?_
    exact .bind (finds_lowerBlock context (some place) body) fun _ =>
      .map (finds_lowerBranches context place rest) _

theorem finds_lowerHandlers (context : Context) (before : Option Python.Span) :
    ∀ handlers : List Python.Handler,
      Finds names context before none (noticesHandlers context handlers)
      (lowerHandlers names handlers)
  | [] => (Finds.pure _).forget
  | ⟨types, name, body, span⟩ :: rest => by
    rw [lowerHandlers]
    -- the clause moves to its place, whatever was there before, and the next one starts from it
    refine .silent (.moveTo span) fun _ =>
      .bind (.lift (notes_lowerCaught names types name)) fun _ => ?_
    exact .bind (finds_lowerBlock context (some span) body) fun _ =>
      .map (finds_lowerHandlers context (some span) rest) _

theorem finds_lowerCases (context : Context) (before : Option Python.Span)
    (tupleSubject : Bool) : ∀ cases : List Python.MatchCase, Finds names context before none
      (noticesCases context cases) (lowerCases names tupleSubject cases)
  | [] => (Finds.pure _).forget
  | ⟨pattern, guard, body, span⟩ :: rest => by
    rw [lowerCases]
    refine .silent (.moveTo span) fun _ =>
      .bind (.lift (notes_lowerLabel names tupleSubject pattern guard)) fun _ => ?_
    exact .bind (finds_lowerBlock context (some span) body) fun _ =>
      .map (finds_lowerCases context (some span) tupleSubject rest) _

theorem finds_lowerMembers (context : Context) (here : Option Python.Span) :
    ∀ body : List Python.Stmt, Finds names context here here (noticesBlock context body)
      (lowerMembers names body)
  | [] => .pure _
  | ⟨kind, span⟩ :: rest => by
    have hs := finds_lowerStmt context here ⟨kind, span⟩
    have hr := finds_lowerMembers context here rest
    rw [lowerMembers]
    split
    · -- what does nothing is left out
      rename_i hplace
      have hnone : kind.notices context span = [] := notices_of_nowhere hplace context span
      exact hr.of_eq (by simp [noticesBlock, Python.Stmt.notices, hnone])
    · exact .bind hs fun _ => .map hr _

end

/-- Every module is lowered, and the findings are about the constructs that its notices list, one
finding for each and in the same order. A finding stands at the place of its construct if that is an
unsupported expression or pattern, and otherwise at the place of the innermost statement, `except`
clause or `case` around the construct. -/
theorem findings_stand_at_innermost_place (options : Options) (source : Python.Module) : ∃ output,
    lower options source = .ok output ∧
      List.Forall₂ (Reports options.library) source.notices output.diagnostics := by
  obtain ⟨body, after, hbody, hrun⟩ := lowerModule_closed options.library source
  obtain ⟨_, _, added, hbody', -, -, hadded, hfound⟩ :=
    finds_lowerBlock options.library .ofModule none source.body (moduleStart source) rfl
      (State.isAt_unknown _)
  obtain ⟨rfl, rfl⟩ := run_unique hbody hbody'
  refine ⟨_, lower_run hrun, ?_⟩
  rw [hadded]
  exact hfound

/-- Behind the clauses of a `try` the place of the `try` is gone, but what follows has its own. -/
example :
    (lower {}
      ⟨[⟨.tryBlock [⟨.passStmt, ⟨2, 5⟩⟩] [⟨[.ellipsis], none, [⟨.passStmt, ⟨4, 5⟩⟩], ⟨3, 1⟩⟩] none
      (some [⟨.assertStmt .ellipsis none, ⟨6, 5⟩⟩]), ⟨1, 1⟩⟩]⟩).toOption.map
        (fun output => output.diagnostics.map Diagnostic.span) =
    some [⟨3, 1⟩, ⟨6, 5⟩] := by
  decide +kernel

end PythonToCSharp.Lowering
