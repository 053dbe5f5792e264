import PythonToCSharp.Proofs.Execution.Emission

/-!
Lowering emits: the lines that a body is lowered to stand for its statements in the sense of
`Emits`.

A step that lowers a part of the body is looked at from any state inside the body. Its generated
names are those that the frame hands out or reaches meanwhile; names from before are none of them.
-/

namespace PythonToCSharp.Lowering

open Scope (Frame Stack)

/-- The mark of the loop that a `break` would leave. -/
def markOf (frame : Frame) : Option String :=
  match frame.breakTarget? with
  | some (.loop mark) => mark
  | _ => none

theorem markOf_of_grows {before after : Frame} (h : before.Grows after) :
    markOf after = markOf before := by
  simp only [markOf, Frame.breakTarget?, h.breakTargets]

namespace Body

variable {S : Body} {α β : Type}

/-- The state is one inside the body. -/
structure Ready (S : Body) (s : State) : Prop where
  receiver : s.scopes.receiver = S.self
  reserved : s.scopes.current.reserved = S.reserved
  flagsFresh : s.scopes.current.FlagsFresh
  depth : s.scopes.current.tryDepth ≤ s.scopes.current.flags.length

theorem Ready.of_grows {s after : State} (h : S.Ready s) (hg : s.Grows after) : S.Ready after where
  receiver := hg.scopes.receiverEq.trans h.receiver
  reserved := hg.scopes.current.reserved.trans h.reserved
  flagsFresh := hg.scopes.current.flagsFresh h.flagsFresh
  depth := by
    have hlen := hg.scopes.current.flags.length_le
    have hdepth := h.depth
    rw [hg.scopes.current.tryDepth]
    omega

/-- A generated name that is not set aside is no variable of the source. -/
theorem hidden_of_candidate {base : String} (hb : base ∈ Frame.bases) {n : Nat}
    (h : Frame.candidate base n ∉ S.reserved) : S.Hidden (Frame.candidate base n) := by
  refine ⟨⟨base, hb, n, rfl⟩, ?_⟩
  rintro (hthis | ⟨id, hid, heq⟩)
  · exact Frame.candidate_ne_this hb n hthis
  · refine Frame.candidate_ne_escapeIdentifier hb ?_ heq
    rintro rfl
    exact h hid

/-- The step succeeds from every state of the body, and what it gives is emitted in the sense of
`P`, whatever the lines may write apart from their own names. -/
def EmitsFrom (S : Body) (P : (String → Prop) → Option String → α → Prop) (step : Lower α) : Prop :=
  ∀ s, S.Ready s → ∃ result after, step s = .ok (result, after) ∧ s.Grows after ∧
    ((∀ flag ∈ after.scopes.current.flags, flag ∈ S.flags) →
      ∀ own : String → Prop, (∀ name, s.scopes.current.Owns after.scopes.current name → own name) →
        P own (markOf s.scopes.current) result)

namespace EmitsFrom

variable {P : (String → Prop) → Option String → α → Prop}
  {Q : (String → Prop) → Option String → β → Prop}

theorem pure {a : α} (h : ∀ own mark, P own mark a) : S.EmitsFrom P (Pure.pure a : Lower α) :=
  fun s _ => ⟨a, s, rfl, .refl s, fun _ own _ => h own _⟩

theorem bind {x : Lower α} {f : α → Lower β} (hx : S.EmitsFrom P x)
    (hf : ∀ a, S.EmitsFrom (fun own mark b => P own mark a → Q own mark b) (f a)) :
    S.EmitsFrom Q (x >>= f) := by
  intro s hs
  obtain ⟨a, middle, hrun, hg, hP⟩ := hx s hs
  obtain ⟨b, after, hrun', hg', hQ⟩ := hf a middle (hs.of_grows hg)
  refine ⟨b, after, (bind_run hrun).trans hrun', hg.trans hg', ?_⟩
  intro hflags own hown
  have hfirst : P own (markOf s.scopes.current) a := by
    refine hP (fun flag hflag => hflags flag (hg'.scopes.current.flags.subset hflag)) own ?_
    intro name hname
    exact hown name (hname.left hg'.scopes.current)
  have hrest := hQ hflags own fun name hname => hown name (.right hg.scopes.current hname)
  rw [markOf_of_grows hg.scopes.current] at hrest
  exact hrest hfirst

theorem map {x : Lower α} {f : α → β} (hx : S.EmitsFrom P x)
    (hf : ∀ own mark a, P own mark a → Q own mark (f a)) : S.EmitsFrom Q (do return f (← x)) :=
  bind hx fun a => pure fun own mark => hf own mark a

/-- A step that lowers an expression, at some state of the body. -/
theorem lift {x : Render α} (hk : KeepsPlace x) :
    S.EmitsFrom (fun _ _ a => ∃ s : State, s.scopes.receiver = S.self ∧ (x s).1 = a)
      (liftM x : Lower α) :=
  fun s hs => ⟨(x s).1, (x s).2, rfl, (hk s).1, fun _ _ _ => ⟨s, hs.receiver, rfl⟩⟩

theorem moveTo (span : Python.Span) :
    S.EmitsFrom (fun _ _ _ => True) (liftM (Lowering.moveTo span) : Lower Unit) :=
  fun s _ => ⟨(), { s with span := span }, rfl, ⟨rfl, .refl s.scopes⟩, fun _ _ _ => trivial⟩

theorem located {step : Lower α} (h : S.EmitsFrom P step) (span : Python.Span) :
    S.EmitsFrom P (located span step) := by
  intro s hs
  obtain ⟨a, middle, hrun, hg, hP⟩ :=
    h { s with span := span } ⟨hs.receiver, hs.reserved, hs.flagsFresh, hs.depth⟩
  exact ⟨a, { middle with span := s.span }, located_eq hrun, ⟨hg.classNames, hg.scopes⟩, hP⟩

/-- A step inside a loop, whose mark is the one that a `break` clears. -/
theorem breakable {step : Lower α} (h : S.EmitsFrom P step) (mark : Option String) :
    S.EmitsFrom (fun own _ a => P own mark a) (breakable (.loop mark) step) := by
  intro s hs
  let inside : State := { s with scopes := s.scopes.modifyCurrent (·.pushBreakTarget (.loop mark)) }
  have hcurrent : inside.scopes.current = s.scopes.current.pushBreakTarget (.loop mark) :=
    s.scopes.current_modifyCurrent _
  have hreceiver : inside.scopes.receiver = s.scopes.receiver :=
    s.scopes.receiver_modifyCurrent rfl rfl
  have hready : S.Ready inside := by
    refine ⟨hreceiver.trans hs.receiver, ?_, ?_, ?_⟩
    · rw [hcurrent]
      exact hs.reserved
    · rw [hcurrent]
      exact hs.flagsFresh.of_flags_eq rfl rfl (Nat.le_refl _)
    · rw [hcurrent]
      exact hs.depth
  obtain ⟨a, middle, hrun, hg, hP⟩ := h inside hready
  refine ⟨a, { middle with scopes := middle.scopes.modifyCurrent (·.popBreakTarget) }, ?_,
    ⟨hg.classNames, ?_⟩, ?_⟩
  · rw [Lowering.breakable, lift_bind_run]
    exact bind_run hrun
  · have hscopes : (s.scopes.modifyCurrent (·.pushBreakTarget (.loop mark))).Grows middle.scopes :=
      hg.scopes
    exact hscopes.bracket fun _ hf => hf.popBreakTarget
  · -- what is owned does not depend on the loops around
    intro hflags own hown
    rw [Stack.current_modifyCurrent] at hflags hown
    have hinner := hP hflags own
    rw [hcurrent] at hinner
    exact hinner hown

/-- A generated name is no variable of the source. -/
theorem freshName {base : String} (hb : base ∈ Frame.bases) :
    S.EmitsFrom (fun _ _ name => ¬S.User name) (liftM (Lowering.fresh base) : Lower String) := by
  intro s hs
  refine ⟨_, _, rfl, (keepsPlace_fresh base s).1, ?_⟩
  intro _ _ _
  refine (hidden_of_candidate hb ?_).2
  rw [← hs.reserved]
  exact s.scopes.current.fresh_notMem_reserved base

/-- A generated name for a part of the body: the names inside are others. -/
theorem fresh {base : String} (hb : base ∈ Frame.bases) (hne : base ≠ Frame.flagBase)
    {f : String → Lower β}
    (hf : ∀ name, S.EmitsFrom
      (fun inner mark b => ∀ own, Inside own inner name → Q own mark b) (f name)) :
    S.EmitsFrom Q ((liftM (fresh base) : Lower String) >>= f) := by
  intro s hs
  let frame := s.scopes.current
  let middle : State := { s with scopes := s.scopes.modifyCurrent fun _ => (frame.fresh base).2 }
  have hcurrent : middle.scopes.current = (frame.fresh base).2 := s.scopes.current_modifyCurrent _
  have hg : s.Grows middle := (keepsPlace_fresh base s).1
  obtain ⟨b, after, hrun, hg', hQ⟩ := hf (frame.fresh base).1 middle (hs.of_grows hg)
  have hafter : S.Ready after := hs.of_grows (hg.trans hg')
  have hframe : (frame.fresh base).2.Grows after.scopes.current := hcurrent ▸ hg'.scopes.current
  refine ⟨b, after, ?_, hg.trans hg', ?_⟩
  · rw [lift_bind_run]
    exact hrun
  · intro hflags own hown
    have hinner := hQ hflags _ fun _ hname => hname
    rw [markOf_of_grows hg.scopes.current] at hinner
    refine hinner own ⟨?_, ?_, ?_⟩
    · exact hown _ (Frame.owns_fresh hb hframe)
    · intro x hx
      exact hown x (.right hg.scopes.current hx)
    · rw [hcurrent]
      exact Frame.not_owns_fresh hb hne (.refl _) hafter.flagsFresh

/-- The parts of a `try` are lowered one level of `try` deeper, where its flag is none of their
names. -/
theorem inTry {parts : String → Lower β}
    (hf : ∀ flag, S.EmitsFrom (fun inner mark b => ∀ own, Inside own inner flag → flag ∈ S.flags →
      Q own mark b) (parts flag)) :
    S.EmitsFrom Q (do
      let flag ← enterTry
      let result ← parts flag
      modifyFrame (·.exitTry)
      return result) := by
  intro s hs
  let frame := s.scopes.current
  let entered : State := { s with scopes := s.scopes.modifyCurrent fun _ => frame.enterTry.2 }
  have hcurrent : entered.scopes.current = frame.enterTry.2 := s.scopes.current_modifyCurrent _
  have henter := frame.grows_enterTry
  have hready : S.Ready entered := by
    have hreceiver : entered.scopes.receiver = s.scopes.receiver :=
      s.scopes.receiver_modifyCurrent henter.kind henter.receiver
    refine ⟨hreceiver.trans hs.receiver, ?_, ?_, ?_⟩
    · rw [hcurrent]
      exact henter.reserved.trans hs.reserved
    · rw [hcurrent]
      exact henter.flagsFresh (hs.flagsFresh.of_flags_eq rfl rfl (Nat.le_refl _))
    · rw [hcurrent, henter.tryDepth]
      exact (List.getElem?_eq_some_iff.1 (frame.getElem?_flags_enterTry hs.depth)).1
  obtain ⟨b, middle, hrun, hg, hQ⟩ := hf frame.enterTry.1 entered hready
  have hgrows : frame.enterTry.2.Grows middle.scopes.current := hcurrent ▸ hg.scopes.current
  have hscopes : (s.scopes.modifyCurrent fun _ => frame.enterTry.2).Grows middle.scopes := hg.scopes
  refine ⟨b, { middle with scopes := middle.scopes.modifyCurrent (·.exitTry) }, ?_,
    ⟨hg.classNames, hscopes.bracket fun _ hframe => (henter.trans hframe).exitTry⟩, ?_⟩
  · rw [lift_bind_run]
    exact bind_run hrun
  · intro hflags own hown
    rw [Stack.current_modifyCurrent] at hflags hown
    have hmark : markOf entered.scopes.current = markOf frame := by
      simp only [markOf, Frame.breakTarget?, hcurrent, henter.breakTargets]
      rfl
    have hinner := hQ hflags _ fun _ hname => hname
    rw [hmark] at hinner
    have howned := Frame.owns_enterTry hs.depth (hready.of_grows hg).flagsFresh hgrows
    have hflag := Frame.mem_flags_of_grows_enterTry hs.depth hgrows
    refine hinner own ⟨hown _ howned, ?_, ?_⟩ (hflags _ (List.mem_of_getElem? hflag))
    · intro x hx
      rw [hcurrent] at hx
      exact hown x (Frame.Owns.of_inTry (.right henter hx))
    · rw [hcurrent]
      exact Frame.not_owns_enterTry hs.depth hs.flagsFresh hgrows

end EmitsFrom

/-! ## Compound statements -/

section

variable {body : List Python.Stmt} {step : Lower Block} {orelse : Option (List Python.Stmt)}

/-- The step emits the statements of a block. -/
abbrev EmitsBody (S : Body) (body : List Python.Stmt) (step : Lower Block) : Prop :=
  S.EmitsFrom (fun own mark lines => S.EmitsBlock own mark body lines) step

theorem emits_lowerBreak :
    S.EmitsFrom (fun own mark lines => S.Emits own mark .breakStmt lines)
      (liftM lowerBreak : Lower Block) := by
  intro s hs
  refine ⟨(lowerBreak s).1, (lowerBreak s).2, rfl, (keepsPlace_lowerBreak s).1, ?_⟩
  intro _ own _
  have hframe : currentFrame s = (s.scopes.current, s) := rfl
  unfold lowerBreak markOf
  simp only [Bind.bind, StateT.bind, hframe]
  -- only a loop that has a mark clears it first
  rcases s.scopes.current.breakTarget? with _ | (_ | mark) | _
  · exact .break_
  · exact .break_
  · exact .breakMarked mark
  · exact .break_

theorem emits_lowerWhile {test : Python.Expr} (ht : S.fragment.test test)
    (hb : S.EmitsBody body step)
    (ho : ∀ block ∈ orelse, S.EmitsBody block (lowerBlock S.names block)) :
    S.EmitsFrom (fun own mark lines => S.Emits own mark (.whileLoop test body orelse) lines)
      (lowerWhile S.names test step (lowerOrelse S.names orelse)) := by
  have htest := EmitsFrom.lift (S := S) (keepsPlace_lowerExpr S.names test)
  cases orelse with
  | none =>
    refine .bind htest fun test' => ?_
    refine .map (hb.breakable none) ?_
    intro own mark body' hbody hl
    exact .whileLoop ht hl hbody
  | some block =>
    rw [lowerOrelse]
    refine .fresh (by decide) (by decide) fun name => ?_
    refine .bind htest fun test' => ?_
    refine .bind (hb.breakable (some name)) fun body' => ?_
    refine .map (ho block rfl) ?_
    intro inner mark orelse' horelse hbody hl own hi
    exact .whileElse hi ht hl hbody horelse

/-- The loop of a `for` with what stands first in its body. -/
theorem emits_lowerForEach {target iter : Python.Expr} (first : Block)
    (hb : S.EmitsBody body step) :
    S.EmitsFrom (fun own _ loop => ∃ item iter' target' body', ¬S.User item ∧
        LowersExpr S.names S.self iter iter' ∧ LowersTarget S.names S.self target target' ∧
        S.EmitsBlock own none body body' ∧
        loop = .forEach false item iter' (first ++ .assign target' (.name item) :: body'))
      (lowerForEach S.names false target iter first step) := by
  refine .bind (.lift (keepsPlace_recordTarget target)) fun _ => ?_
  refine .bind (.lift (keepsPlace_lowerExpr S.names iter)) fun iter' => ?_
  refine .bind (.freshName (by decide)) fun item => ?_
  refine .bind (.lift (keepsPlace_lowerTarget S.names target)) fun target' => ?_
  refine .map (hb.breakable none) ?_
  intro own _ body' hbody ht hu hl _
  exact ⟨item, iter', target', body', hu, hl, ht, hbody, rfl⟩

theorem emits_lowerFor {target iter : Python.Expr} (hf : S.fragment.loop target iter)
    (hr : ∀ id ∈ target.boundNames, id ∈ S.reserved) (hb : S.EmitsBody body step)
    (ho : ∀ block ∈ orelse, S.EmitsBody block (lowerBlock S.names block)) :
    S.EmitsFrom (fun own mark lines => S.Emits own mark (.forLoop target iter body orelse false)
      lines) (lowerFor S.names false target iter step (lowerOrelse S.names orelse)) := by
  cases orelse with
  | none =>
    refine .map (emits_lowerForEach [] hb) ?_
    rintro own mark loop ⟨item, iter', target', body', hu, hl, ht, hbody, rfl⟩
    exact .forLoop hu hf hr hl ht hbody
  | some block =>
    rw [lowerOrelse]
    refine .fresh (by decide) (by decide) fun name => ?_
    refine .bind (emits_lowerForEach [setMark name true] hb) fun loop => ?_
    refine .map (ho block rfl) ?_
    rintro inner mark orelse' horelse ⟨item, iter', target', body', hu, hl, ht, hbody, rfl⟩ own hi
    exact .forElse hu hi hf hr hl ht hbody horelse

theorem emits_optionally (h : ∀ block ∈ orelse, S.EmitsBody block (lowerBlock S.names block)) :
    S.EmitsFrom (fun own mark lines => S.EmitsOption own mark orelse lines)
      (optionally (lowerOrelse S.names orelse)) := by
  cases orelse with
  | none => exact .pure fun own mark => .none
  | some block =>
    refine .map (h block rfl) ?_
    intro own mark lines hlines
    exact .some hlines

theorem emits_lowerTry {handlers : List Python.Handler} {finalbody : Option (List Python.Stmt)}
    (ht : S.fragment.tries) (hb : S.EmitsBody body (lowerBlock S.names body))
    (hh : S.EmitsFrom (fun own mark catches => S.EmitsHandlers own mark handlers catches)
      (lowerHandlers S.names handlers))
    (ho : ∀ block ∈ orelse, S.EmitsBody block (lowerBlock S.names block))
    (hf : ∀ block ∈ finalbody, S.EmitsBody block (lowerBlock S.names block)) :
    S.EmitsFrom (fun own mark lines => S.Emits own mark (.tryBlock body handlers orelse finalbody)
      lines) (lowerTry (lowerBlock S.names body) (lowerHandlers S.names handlers)
        (lowerOrelse S.names orelse) (lowerOrelse S.names finalbody)) := by
  -- the lines are put together before the level is left
  have heq : lowerTry (lowerBlock S.names body) (lowerHandlers S.names handlers)
      (lowerOrelse S.names orelse) (lowerOrelse S.names finalbody) = (do
        let flag ← enterTry
        let lines ← (do
          let body ← lowerBlock S.names body
          let catches ← lowerHandlers S.names handlers
          let cleanup ← optionally (lowerOrelse S.names finalbody)
          let orelse ← optionally (lowerOrelse S.names orelse)
          return setMark flag false :: .tryCatch (body ++ [setMark flag true]) catches cleanup ::
            (orelse.map (guarded (.name flag))).toList)
        modifyFrame (·.exitTry)
        return lines) := by
    simp only [lowerTry, bind_assoc, pure_bind]
  rw [heq]
  refine .inTry fun flag => ?_
  refine .bind hb fun body' => ?_
  refine .bind hh fun catches => ?_
  refine .bind (emits_optionally hf) fun cleanup => ?_
  refine .map (emits_optionally ho) ?_
  intro inner mark orelse' horelse hcleanup hcatches hbody own hi hd
  exact .tryBlock ht hi hd hbody hcatches hcleanup horelse

end

/-! ## Whole bodies -/

/-- The step for a statement emits it. -/
abbrev EmitsKind (S : Body) (kind : Python.StmtKind) : Prop :=
  S.EmitsFrom (fun own mark lines => S.Emits own mark kind lines) (lowerKind S.names kind)

theorem emits_lowerBlock {body : List Python.Stmt} (h : ∀ s ∈ body, S.EmitsKind s.kind) :
    S.EmitsBody body (lowerBlock S.names body) := by
  induction body with
  | nil => exact .pure fun own mark => .nil
  | cons s rest ih =>
    obtain ⟨hs, hrest⟩ := List.forall_mem_cons.1 h
    obtain ⟨kind, span⟩ := s
    rw [lowerBlock, lowerStmt]
    refine .bind (EmitsFrom.located hs span) fun first => ?_
    refine .map (ih hrest) ?_
    intro own mark lines hlines hfirst
    exact .cons hfirst hlines

theorem emits_lowerBranches {branches : List Python.Branch}
    (ht : ∀ branch ∈ branches, S.fragment.test branch.test)
    (hb : ∀ branch ∈ branches, S.EmitsBody branch.body (lowerBlock S.names branch.body)) :
    S.EmitsFrom (fun own mark lowered => S.EmitsBranches own mark branches lowered)
      (lowerBranches S.names branches) := by
  induction branches with
  | nil => exact .pure fun own mark => .nil
  | cons branch rest ih =>
    obtain ⟨htest, hrest⟩ := List.forall_mem_cons.1 ht
    obtain ⟨hbody, hbodies⟩ := List.forall_mem_cons.1 hb
    obtain ⟨test, body⟩ := branch
    rw [lowerBranches]
    refine .bind (.lift (keepsPlace_lowerExpr S.names test)) fun test' => ?_
    refine .bind hbody fun body' => ?_
    refine .map (ih hrest hbodies) ?_
    intro own mark lowered hlowered hbody' hl
    exact .cons htest hl hbody' hlowered

theorem emits_lowerHandlers {handlers : List Python.Handler}
    (h : ∀ handler ∈ handlers, S.EmitsBody handler.body (lowerBlock S.names handler.body)) :
    S.EmitsFrom (fun own mark catches => S.EmitsHandlers own mark handlers catches)
      (lowerHandlers S.names handlers) := by
  induction handlers with
  | nil => exact .pure fun own mark => .nil
  | cons handler rest ih =>
    obtain ⟨hbody, hrest⟩ := List.forall_mem_cons.1 h
    obtain ⟨types, name, body, span⟩ := handler
    rw [lowerHandlers]
    refine .bind (.moveTo span) fun _ => ?_
    refine .bind (.lift (keepsPlace_lowerCaught S.names types name)) fun caught => ?_
    refine .bind hbody fun body' => ?_
    refine .map (ih hrest) ?_
    intro own mark catches hcatches hbody' hcaught _
    exact .cons hcaught hbody' hcatches

/-- The names that a statement and those in its blocks bind by their form are set aside. -/
structure Covers (S : Body) (kind : Python.StmtKind) : Prop where
  bound : ∀ id ∈ kind.boundByForm, id ∈ S.reserved
  inner : ∀ s ∈ kind.blocks.flatMap (Python.reachedBlock false), ∀ id ∈ s.kind.boundByForm,
    id ∈ S.reserved

theorem covers_of_mem {body : List Python.Stmt}
    (h : ∀ s ∈ Python.reachedBlock false body, ∀ id ∈ s.kind.boundByForm, id ∈ S.reserved) :
    ∀ s ∈ body, S.Covers s.kind := by
  rintro ⟨kind, span⟩ hs
  have hreached : ∀ inner ∈ Python.Stmt.reached false ⟨kind, span⟩, ∀ id ∈ inner.kind.boundByForm,
      id ∈ S.reserved := by
    intro inner hi
    refine h inner ?_
    rw [Python.reachedBlock_eq]
    exact List.mem_flatMap_of_mem hs hi
  rw [Python.reached_eq] at hreached
  obtain ⟨hbound, hinner⟩ := List.forall_mem_cons.1 hreached
  exact ⟨hbound, hinner⟩

theorem Covers.block {kind : Python.StmtKind} (h : S.Covers kind) {block : List Python.Stmt}
    (hb : block ∈ kind.blocks) : ∀ s ∈ block, S.Covers s.kind :=
  covers_of_mem fun s hs => h.inner s (List.mem_flatMap_of_mem hb hs)

theorem emits_simple {kind : Python.StmtKind} (hs : S.fragment.simple kind)
    (hk : kind.isSimple = true)
    (hb : ∀ id ∈ kind.boundByForm, id ∈ S.reserved) : S.EmitsKind kind := by
  intro s hready
  obtain ⟨lines, after, hrun, hg⟩ := succeeds_lowerKind S.names kind s
  refine ⟨lines, after, hrun, hg, ?_⟩
  intro _ own _
  exact .simple hs hk hb ⟨s, after, hready.receiver, hrun⟩
    (harmless_lowerKind hk hb hready.receiver hrun)

/-- Every statement that is built from the fragment is emitted. The induction is on how it is built;
the names that its blocks bind are set aside with those of the body. -/
theorem emits_lowerKind (hsimple : ∀ kind, S.fragment.simple kind → kind.isSimple = true)
    {kind : Python.StmtKind} (h : S.fragment.Builds kind) (hc : S.Covers kind) :
    S.EmitsKind kind := by
  induction h with
  | simple hs => exact emits_simple hs (hsimple _ hs) hc.bound
  | break_ => exact emits_lowerBreak
  | continue_ => exact .pure fun own mark => .continue_
  | @ifChain branches orelse _ ht _ _ ihb iho =>
    have hbranches :
        ∀ branch ∈ branches, S.EmitsBody branch.body (lowerBlock S.names branch.body) := by
      intro branch hbranch
      have hin : branch.body ∈ branches.map Python.Branch.body ++ orelse.toList :=
        List.mem_append_left _ (List.mem_map_of_mem hbranch)
      exact emits_lowerBlock fun s hs => ihb branch hbranch s hs (hc.block hin s hs)
    have horelse : ∀ block ∈ orelse, S.EmitsBody block (lowerBlock S.names block) := by
      intro block hblock
      have hin : block ∈ branches.map Python.Branch.body ++ orelse.toList :=
        List.mem_append_right _ (Option.mem_toList.2 hblock)
      exact emits_lowerBlock fun s hs => iho block hblock s hs (hc.block hin s hs)
    rw [EmitsKind, lowerKind]
    refine .bind (emits_lowerBranches ht hbranches) fun lowered => ?_
    refine .map (emits_optionally horelse) ?_
    intro own mark orelse' horelse' hlowered
    exact .ifChain hlowered horelse'
  | @whileLoop test body orelse ht _ _ ihb iho =>
    have hbody := emits_lowerBlock fun s hs => ihb s hs (hc.block List.mem_cons_self s hs)
    have horelse : ∀ block ∈ orelse, S.EmitsBody block (lowerBlock S.names block) := by
      intro block hblock
      have hin : block ∈ body :: orelse.toList :=
        List.mem_cons_of_mem _ (Option.mem_toList.2 hblock)
      exact emits_lowerBlock fun s hs => iho block hblock s hs (hc.block hin s hs)
    rw [EmitsKind, lowerKind]
    exact emits_lowerWhile ht hbody horelse
  | @forLoop target iter body orelse hl _ _ ihb iho =>
    have hbody := emits_lowerBlock fun s hs => ihb s hs (hc.block List.mem_cons_self s hs)
    have horelse : ∀ block ∈ orelse, S.EmitsBody block (lowerBlock S.names block) := by
      intro block hblock
      have hin : block ∈ body :: orelse.toList :=
        List.mem_cons_of_mem _ (Option.mem_toList.2 hblock)
      exact emits_lowerBlock fun s hs => iho block hblock s hs (hc.block hin s hs)
    rw [EmitsKind, lowerKind]
    exact emits_lowerFor hl hc.bound hbody horelse
  | @tryBlock body handlers orelse finalbody ht _ _ _ _ ihb ihh iho ihf =>
    have hbody := emits_lowerBlock fun s hs => ihb s hs (hc.block List.mem_cons_self s hs)
    have hpart {block : List Python.Stmt}
        (hin : block ∈ handlers.map Python.Handler.body ++ (orelse.toList ++ finalbody.toList))
        (ih : ∀ s ∈ block, S.Covers s.kind → S.EmitsKind s.kind) :
        S.EmitsBody block (lowerBlock S.names block) :=
      emits_lowerBlock fun s hs => ih s hs (hc.block (List.mem_cons_of_mem _ hin) s hs)
    rw [EmitsKind, lowerKind]
    refine emits_lowerTry ht hbody (emits_lowerHandlers fun handler hh => ?_) ?_ ?_
    · exact hpart (List.mem_append_left _ (List.mem_map_of_mem hh)) fun s hs => ihh handler hh s hs
    · intro block hblock
      refine hpart (List.mem_append_right _ (List.mem_append_left _ ?_)) fun s hs =>
        iho block hblock s hs
      exact Option.mem_toList.2 hblock
    · intro block hblock
      refine hpart (List.mem_append_right _ (List.mem_append_right _ ?_)) fun s hs =>
        ihf block hblock s hs
      exact Option.mem_toList.2 hblock

/-- Every statement is emitted of a body that is built from the fragment and binds only names that
are set aside. -/
theorem emits_all (hsimple : ∀ kind, S.fragment.simple kind → kind.isSimple = true)
    {body : List Python.Stmt} (hb : ∀ s ∈ body, S.fragment.Builds s.kind)
    (hbound : ∀ id ∈ Python.boundIn body, id ∈ S.reserved) : ∀ s ∈ body, S.EmitsKind s.kind := by
  intro s hs
  refine emits_lowerKind hsimple (hb s hs) ?_
  refine covers_of_mem (fun inner hi id hid => hbound id ?_) s hs
  exact List.mem_flatMap_of_mem hi (List.mem_append_left _ hid)

/-- The statements of a class body that run in its static constructor. -/
def initialStatements (body : List Python.Stmt) : List Python.Stmt :=
  body.filter fun s => memberPlace s.kind == .initializer

/-- Of the body of a class, the statements that run when it is set up are emitted. -/
theorem emits_lowerMembers {body : List Python.Stmt} (h : ∀ s ∈ body, S.EmitsKind s.kind) :
    S.EmitsFrom (fun own mark lowered => S.EmitsBlock own mark
      (initialStatements body) lowered.initializer) (lowerMembers S.names body) := by
  induction body with
  | nil => exact .pure fun own mark => .nil
  | cons s rest ih =>
    obtain ⟨hs, hrest⟩ := List.forall_mem_cons.1 h
    obtain ⟨kind, span⟩ := s
    have hstmt := EmitsFrom.located hs span
    rw [lowerMembers]
    have hskip (hne : memberPlace kind ≠ .initializer) :
        initialStatements (⟨kind, span⟩ :: rest) = initialStatements rest :=
      List.filter_cons_of_neg (by simpa using hne)
    cases hplace : memberPlace kind with
    | nowhere =>
      rw [hskip (by rw [hplace]; exact nofun)]
      exact ih hrest
    | members =>
      rw [hskip (by rw [hplace]; exact nofun), lowerStmt]
      refine .bind hstmt fun lowered => ?_
      refine .map (ih hrest) ?_
      intro own mark members hmembers _
      exact hmembers
    | initializer =>
      have hkeep :
          initialStatements (⟨kind, span⟩ :: rest) = ⟨kind, span⟩ :: initialStatements rest :=
        List.filter_cons_of_pos (by simp [hplace])
      rw [hkeep, lowerStmt]
      refine .bind hstmt fun lowered => ?_
      refine .map (ih hrest) ?_
      intro own mark members hmembers hlowered
      exact .cons hlowered hmembers

/-! ## The bodies of frames -/

/-- The lines stand for a whole body. Their own names and the flags of the frame are hidden from the
source. -/
def Emitted (S : Body) (body : List Python.Stmt) (lines : Block) : Prop :=
  ∃ own : String → Prop, S.EmitsBlock own none body lines ∧ (∀ x, own x → S.Hidden x) ∧
    ∀ flag ∈ S.flags, S.Hidden flag

/-- A frame that is opened for a body, and what is set aside for it. -/
structure Opens (frame : Frame) (reserved : List String) : Prop where
  reserved_eq : frame.reserved = reserved
  flags : frame.flags = []
  tryDepth : frame.tryDepth = 0
  breakTargets : frame.breakTargets = []

/-- What is lowered under a frame that is opened for it stands for the body. -/
theorem EmitsFrom.emitted {body : List Python.Stmt} {lines : α → Block} {step : Lower α}
    (h : S.EmitsFrom (fun own mark a => S.EmitsBlock own mark body (lines a)) step)
    {s after : State} {a : α}
    (ho : Opens s.scopes.current S.reserved) (hself : s.scopes.receiver = S.self)
    (hrun : step s = .ok (a, after)) (hflags : S.flags = after.scopes.current.flags) :
    S.Emitted body (lines a) := by
  have hs : S.Ready s := by
    refine ⟨hself, ho.reserved_eq, Frame.flagsFresh_of_nil ho.flags, ?_⟩
    rw [ho.tryDepth]
    exact Nat.zero_le _
  have hmark : markOf s.scopes.current = none := by
    simp only [markOf, Frame.breakTarget?, ho.breakTargets, List.head?_nil]
  obtain ⟨result, last, hrun', hg, hP⟩ := h s hs
  obtain ⟨rfl, rfl⟩ := run_unique hrun hrun'
  have hafter := hs.of_grows hg
  refine ⟨s.scopes.current.Owns after.scopes.current, ?_, ?_, ?_⟩
  · rw [← hmark]
    exact hP (fun flag hflag => hflags ▸ hflag) _ fun _ hname => hname
  · intro name hname
    obtain ⟨base, hbase, n, rfl⟩ := hname.exists_candidate hafter.flagsFresh
    refine hidden_of_candidate hbase ?_
    rw [← hs.reserved]
    exact hname.1
  · intro flag hflag
    rw [hflags] at hflag
    have hreserved := hafter.flagsFresh.reserved flag hflag
    obtain ⟨n, -, rfl⟩ := hafter.flagsFresh.counted flag hflag
    refine hidden_of_candidate (by decide) ?_
    rw [← hafter.reserved]
    exact hreserved

theorem Opens.reserve {frame : Frame} (h : Opens frame []) (names : List String) :
    Opens (frame.reserve names) names := by
  refine ⟨?_, h.flags, h.tryDepth, h.breakTargets⟩
  rw [Frame.reserve, h.reserved_eq, List.nil_append]

/-- Of a frame that is opened for a function, only the names are set that its body binds. -/
theorem opens_function (definition : Python.FunctionDef) (receiver : Option String) :
    Opens (openFunction definition receiver { kind := .function })
      (Python.boundIn definition.body) := by
  have hparams (params : List Python.Param) (frame : Frame) (h : Opens frame []) :
      Opens (params.foldl (fun frame param => frame.exclude param.name) frame) [] := by
    induction params generalizing frame with
    | nil => exact h
    | cons param rest ih => exact ih _ ⟨h.reserved_eq, h.flags, h.tryDepth, h.breakTargets⟩
  have hself (frame : Frame) (name : String) (h : Opens frame []) :
      Opens (frame.setReceiver name) [] :=
    ⟨h.reserved_eq, h.flags, h.tryDepth, h.breakTargets⟩
  have hyields (frame : Frame) (h : Opens frame []) :
      Opens (if Python.yieldsIn definition.body then frame.setGenerator else frame) [] := by
    split
    · exact ⟨h.reserved_eq, h.flags, h.tryDepth, h.breakTargets⟩
    · exact h
  have hstart : Opens { kind := .function } [] := ⟨rfl, rfl, rfl, rfl⟩
  cases receiver with
  | none => exact (hyields _ (hparams definition.params _ hstart)).reserve _
  | some name => exact (hyields _ (hself _ name (hparams definition.params _ hstart))).reserve _

section

variable {F : Fragment} (hsimple : ∀ kind, F.simple kind → kind.isSimple = true)
  (names : LibraryNames)

include hsimple

theorem module_emitted {source : Python.Module} (hb : ∀ s ∈ source.body, F.Builds s.kind) :
    ∃ file after, (lowerModule names source).run {} = .ok (file, after) ∧
      Emitted ⟨names, none, Python.boundIn source.body ++ Python.globalsOf source.body, file.flags,
        F⟩ source.body file.body := by
  obtain ⟨file, after, hrun, hflags, hmodule⟩ := lowerModule_run names source
  let S : Body :=
    ⟨names, none, Python.boundIn source.body ++ Python.globalsOf source.body, file.flags, F⟩
  have hbody : S.EmitsBody source.body (lowerBlock names source.body) :=
    emits_lowerBlock (emits_all hsimple hb fun id hid => List.mem_append_left _ hid)
  refine ⟨file, after, hmodule, ?_⟩
  exact hbody.emitted ⟨rfl, rfl, rfl, rfl⟩ rfl hrun hflags

theorem function_emitted {definition : Python.FunctionDef}
    (hb : ∀ s ∈ definition.body, F.Builds s.kind) (s : State) : ∃ function after self,
      lowerKind names (.functionDef definition) s = .ok ([.function function], after) ∧
        Emitted ⟨names, self, Python.boundIn definition.body, function.flags, F⟩ definition.body
          function.body := by
  obtain ⟨name, params, returns, body, decorators, isAsync⟩ := definition
  obtain ⟨receiver, inner, function, last, after, -, hopen, hrun, hflags, -, hfunction⟩ :=
    lowerFunction_run names ⟨name, params, returns, body, decorators, isAsync⟩
      (succeeds_lowerBlock names body) s
  let S : Body := ⟨names, inner.scopes.receiver, Python.boundIn body, function.flags, F⟩
  have hbody : S.EmitsBody body (lowerBlock names body) :=
    emits_lowerBlock (emits_all hsimple hb fun id hid => hid)
  refine ⟨function, after, inner.scopes.receiver, ?_, ?_⟩
  · rw [lowerKind]
    exact hfunction
  · refine hbody.emitted ?_ rfl hrun hflags
    rw [hopen]
    exact opens_function _ receiver

theorem class_emitted {definition : Python.ClassDef} (hb : ∀ s ∈ definition.body, F.Builds s.kind)
    (s : State) : ∃ type after self lines,
      lowerKind names (.classDef definition) s = .ok (lines, after) ∧
        (lines = [.type type] ∨ lines = [] ∧ type ∈ after.types) ∧
        Emitted ⟨names, self, Python.boundIn definition.body, type.flags, F⟩
          (initialStatements definition.body) type.initializer := by
  obtain ⟨name, bases, body, decorators⟩ := definition
  obtain ⟨inner, lowered, type, last, after, lines, hopen, hrun, hinit, hflags, hclass, hplace⟩ :=
    lowerClass_run names ⟨name, bases, body, decorators⟩ (succeeds_lowerMembers names body) s
  let S : Body := ⟨names, inner.scopes.receiver, Python.boundIn body, type.flags, F⟩
  have hbody := emits_lowerMembers (S := S) (emits_all hsimple hb fun id hid => hid)
  refine ⟨type, after, inner.scopes.receiver, lines, ?_, hplace, ?_⟩
  · rw [lowerKind]
    exact hclass
  · rw [hinit]
    refine hbody.emitted ?_ rfl hrun hflags
    rw [hopen]
    exact ⟨rfl, rfl, rfl, rfl⟩

end

end Body

end PythonToCSharp.Lowering
