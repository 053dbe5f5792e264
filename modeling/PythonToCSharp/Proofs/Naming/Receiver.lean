import PythonToCSharp.Proofs.Naming.Lines

/-!
The receiver of a method is found by its name alone.

`Place` is where a statement stands: which name is the instance, whether the function is a
generator, and what a `break` leaves. From such a place every statement is lowered to lines whose
names are those that are listed for it, so the name of the receiver is `this` all through the body
of a method, and in the heads of classes that are moved out of it. That is what scoping asks for as
long as nothing between the method and the name rebinds it.
-/

namespace PythonToCSharp.Lowering

open CSharp (Stmt.identifiers identifiersBlock identifiersBlock_append identifiersBranches
  identifiersCatches identifiersList identifiersOtherwise identifiersSections)
open Python (Inside Origin originsBlock originsBranches originsCases originsHandlers
  originsOrelse yieldsIn)
open Python.Expr (originsList originsOption)

variable {α β : Type} {self : Option String} {origins first rest : List Origin}

/-! ## Places -/

/-- Where in a function a statement stands. -/
structure Place where
  /-- The name that stands for the instance. -/
  self : Option String
  generator : Bool
  /-- What a `break` leaves, the innermost first. -/
  targets : List Scope.BreakTarget

namespace Place

/-- What the lines for a statement depend on there. -/
def inside (place : Place) : Inside where
  generator := place.generator
  marked := match place.targets with
    | .loop (some _) :: _ => true
    | _ => false

/-- The place inside something that `break` leaves. -/
def under (place : Place) (target : Scope.BreakTarget) : Place :=
  { place with targets := target :: place.targets }

/-- The state is one in which a statement at the place is lowered. -/
structure Around (place : Place) (s : State) : Prop where
  receiver : s.scopes.receiver = place.self
  kind : s.scopes.current.kind = .function
  generator : s.scopes.current.isGenerator = place.generator
  targets : s.scopes.current.breakTargets = place.targets

variable {place : Place} {s : State}

theorem Around.of_grows {after : State} (h : place.Around s) (hg : s.Grows after) :
    place.Around after where
  receiver := hg.scopes.receiverEq.trans h.receiver
  kind := hg.scopes.current.kind.trans h.kind
  generator := hg.scopes.current.isGenerator.trans h.generator
  targets := hg.scopes.current.breakTargets.trans h.targets

/-- A change of the frame that keeps all but what a `break` leaves. -/
theorem Around.modifyCurrent {f : Scope.Frame → Scope.Frame} {targets : List Scope.BreakTarget}
    (h : place.Around s) (hkind : (f s.scopes.current).kind = s.scopes.current.kind)
    (hreceiver : (f s.scopes.current).receiver = s.scopes.current.receiver)
    (hgenerator : (f s.scopes.current).isGenerator = s.scopes.current.isGenerator)
    (htargets : (f s.scopes.current).breakTargets = targets) :
    Around { place with targets := targets } { s with scopes := s.scopes.modifyCurrent f } := by
  have hcurrent := s.scopes.current_modifyCurrent f
  refine ⟨(s.scopes.receiver_modifyCurrent hkind hreceiver).trans h.receiver, ?_, ?_, ?_⟩
  · exact (congrArg Scope.Frame.kind hcurrent).trans (hkind.trans h.kind)
  · exact (congrArg Scope.Frame.isGenerator hcurrent).trans (hgenerator.trans h.generator)
  · exact (congrArg Scope.Frame.breakTargets hcurrent).trans htargets

theorem Around.enterTry (h : place.Around s) : place.Around (enterTry s).2 := by
  have hframe := s.scopes.current.grows_enterTry
  exact h.modifyCurrent hframe.kind hframe.receiver hframe.isGenerator
    (hframe.breakTargets.trans h.targets)

theorem Around.exitTry (h : place.Around s) : place.Around (modifyFrame (·.exitTry) s).2 :=
  h.modifyCurrent rfl rfl rfl h.targets

end Place

/-- From every state at the place the step succeeds, stays there, and gives something whose names
are those that are listed. -/
def Writes (place : Place) (origins : List Origin) (found : α → List String)
    (step : Lower α) : Prop :=
  ∀ s, place.Around s → ∃ a after, step s = .ok (a, after) ∧ place.Around after ∧
    ShownAll place.self origins (found a)

namespace Writes

variable {place : Place} {found : α → List String} {found' : β → List String}

theorem pure {a : α} (h : ShownAll place.self origins (found a)) :
    Writes place origins found (Pure.pure a) :=
  fun s hs => ⟨a, s, rfl, hs, h⟩

theorem bind {x : Lower α} {f : α → Lower β} (hx : Writes place first found x)
    (hf : ∀ a, ShownAll place.self first (found a) → Writes place origins found' (f a)) :
    Writes place origins found' (x >>= f) := by
  intro s hs
  obtain ⟨a, middle, hrun, hmiddle, ha⟩ := hx s hs
  obtain ⟨b, after, hrun', hafter, hb⟩ := hf a ha middle hmiddle
  exact ⟨b, after, (bind_run hrun).trans hrun', hafter, hb⟩

theorem map {x : Lower α} {f : α → β} (hx : Writes place first found x)
    (hf : ∀ a, ShownAll place.self first (found a) → ShownAll place.self origins (found' (f a))) :
    Writes place origins found' (do return f (← x)) :=
  bind hx fun a ha => pure (hf a ha)

/-- A step for an expression comes first. -/
theorem rendered {P : α → Prop} {x : Render α} {f : α → Lower β} (hk : KeepsPlace x)
    (hx : YieldsThat place.self P x)
    (hf : ∀ a, P a → Writes place origins found' (f a)) :
    Writes place origins found' (liftM x >>= f) := by
  intro s hs
  exact hf (x s).1 (hx s hs.receiver).1 (x s).2 (hs.of_grows (hk s).1)

/-- A step that stays at the place comes first. -/
theorem passing {x : Render α} {f : α → Lower β} (hx : ∀ s, place.Around s → place.Around (x s).2)
    (hf : ∀ a, Writes place origins found' (f a)) : Writes place origins found' (liftM x >>= f) :=
  fun s hs => hf (x s).1 (x s).2 (hx s hs)

theorem behind {x : Render α} {f : α → Lower β} (hk : KeepsPlace x)
    (hf : ∀ a, Writes place origins found' (f a)) : Writes place origins found' (liftM x >>= f) :=
  passing (fun s hs => hs.of_grows (hk s).1) hf

theorem lift {x : Render α} (hk : KeepsPlace x)
    (hx : YieldsThat place.self (fun a => ShownAll place.self origins (found a)) x) :
    Writes place origins found (liftM x : Lower α) :=
  fun s hs => ⟨(x s).1, (x s).2, rfl, hs.of_grows (hk s).1, (hx s hs.receiver).1⟩

theorem moveTo {f : Unit → Lower β} (span : Python.Span)
    (hf : ∀ a, Writes place origins found' (f a)) :
    Writes place origins found' (liftM (Lowering.moveTo span) >>= f) :=
  passing (fun _ hs => ⟨hs.receiver, hs.kind, hs.generator, hs.targets⟩) hf

theorem located {step : Lower α} (h : Writes place origins found step) (span : Python.Span) :
    Writes place origins found (located span step) := by
  intro s hs
  obtain ⟨a, middle, hrun, hmiddle, ha⟩ :=
    h { s with span := span } ⟨hs.receiver, hs.kind, hs.generator, hs.targets⟩
  exact ⟨a, { middle with span := s.span }, located_eq hrun,
    ⟨hmiddle.receiver, hmiddle.kind, hmiddle.generator, hmiddle.targets⟩, ha⟩

theorem breakable {target : Scope.BreakTarget} {step : Lower α}
    (h : Writes (place.under target) origins found step) :
    Writes place origins found (breakable target step) := by
  intro s hs
  have hpush : (place.under target).Around
      { s with scopes := s.scopes.modifyCurrent (·.pushBreakTarget target) } :=
    hs.modifyCurrent rfl rfl rfl (congrArg (target :: ·) hs.targets)
  obtain ⟨a, middle, hrun, hmiddle, ha⟩ := h _ hpush
  refine ⟨a, { middle with scopes := middle.scopes.modifyCurrent (·.popBreakTarget) }, ?_, ?_, ha⟩
  · rw [Lowering.breakable, lift_bind_run]
    exact bind_run hrun
  · exact hmiddle.modifyCurrent rfl rfl rfl (congrArg List.tail hmiddle.targets)

end Writes

/-! ## Jumps -/

variable {place : Place}

/-- A `break` clears the mark of a loop that has one. -/
theorem writes_lowerBreak :
    Writes place (Python.StmtKind.breakStmt.origins place.inside) identifiersBlock
      (liftM lowerBreak : Lower Block) := by
  intro s hs
  refine ⟨(lowerBreak s).1, (lowerBreak s).2, rfl, hs.of_grows (keepsPlace_lowerBreak s).1, ?_⟩
  have hframe : currentFrame s = (s.scopes.current, s) := rfl
  have htarget : s.scopes.current.breakTarget? = place.targets.head? :=
    congrArg List.head? hs.targets
  unfold lowerBreak Python.StmtKind.origins Place.inside
  simp only [Bind.bind, StateT.bind, hframe, htarget]
  rcases place.targets with _ | ⟨(_ | mark) | _, targets⟩
  · exact .nil
  · exact .nil
  · exact .generated .nil
  · exact .nil

variable (names : LibraryNames)

theorem writes_lowerReturn (value : Option Python.Expr) :
    Writes place ((Python.StmtKind.returnStmt value).origins place.inside) identifiersBlock
      (liftM (lowerReturn names value) : Lower Block) := by
  intro s hs
  refine ⟨_, _, rfl, hs.of_grows (keepsPlace_lowerReturn names value s).1, ?_⟩
  show ShownLines place.self (if place.generator then [] else originsOption value)
    ((if s.scopes.current.isGenerator then _ else _ : Render Block) s).1
  rw [hs.generator]
  cases place.generator with
  | true => cases value <;> exact .nil
  | false => exact shownLines_singleton (shown_lowerOption names value s hs.receiver).1

/-! ## Compound statements -/

section Compound

variable {names : LibraryNames} {body orelse : Lower Block} {bodyOrigins elseOrigins : List Origin}

theorem shownAll_guarded {test : CSharp.Expr} {block : Block}
    (ht : ShownAll self first test.identifiers)
    (hb : ShownLines self rest block) :
    ShownAll self (first ++ rest) (guarded test block).identifiers := by
  have hline := ht.append hb
  simpa [guarded, Stmt.identifiers, identifiersBranches, identifiersOtherwise] using hline

/-- Statements that run by a mark. -/
theorem shownLines_byMark (mark : String) {block : Block} (h : ShownLines self rest block) :
    ShownLines self (.generated :: rest) [guarded (.name mark) block] := by
  have hmark : ShownAll self [.generated] (CSharp.Expr.name mark).identifiers := .generated .nil
  exact shownLines_singleton (shownAll_guarded hmark h)

theorem writes_lowerWhile {test : Python.Expr}
    (hb : Writes (place.under (.loop none)) bodyOrigins identifiersBlock body) :
    Writes place (test.origins ++ bodyOrigins) identifiersBlock
      (lowerWhile names test body none) := by
  refine .rendered (keepsPlace_lowerExpr names test) (shown_lowerExpr names test)
    fun lowered ht => ?_
  exact .map hb.breakable fun block hblock => shownLines_singleton (ht.append hblock)

theorem writes_lowerWhileElse {test : Python.Expr}
    (hb : ∀ mark, Writes (place.under (.loop (some mark))) bodyOrigins identifiersBlock body)
    (he : Writes place elseOrigins identifiersBlock orelse) :
    Writes place (test.origins ++ (bodyOrigins ++ .generated :: elseOrigins)) identifiersBlock
      (lowerWhile names test body (some orelse)) := by
  refine .behind (keepsPlace_fresh _) fun mark => ?_
  refine .rendered (keepsPlace_lowerExpr names test) (shown_lowerExpr names test)
    fun lowered ht => ?_
  refine .bind (hb mark).breakable fun block hblock => .map he fun otherwise hotherwise => ?_
  have hlines := ht.append (hblock.append (shownLines_byMark mark hotherwise))
  simpa [identifiersBlock, Stmt.identifiers] using hlines

theorem writes_lowerForEach {isAsync : Bool} {target iter : Python.Expr} {start : Block}
    {startOrigins : List Origin} (hs : ShownLines place.self startOrigins start)
    (hb : Writes (place.under (.loop none)) bodyOrigins identifiersBlock body) :
    Writes place (iter.origins ++
      (startOrigins ++ (target.targetOrigins ++ .generated :: bodyOrigins)))
      Stmt.identifiers (lowerForEach names isAsync target iter start body) := by
  refine .behind (keepsPlace_recordTarget target) fun _ => ?_
  refine .rendered (keepsPlace_lowerExpr names iter) (shown_lowerExpr names iter)
    fun source hi => ?_
  refine .behind (keepsPlace_fresh _) fun item => ?_
  refine .rendered (keepsPlace_lowerTarget names target) (shown_lowerTarget names target)
    fun lowered ht => ?_
  refine .map hb.breakable fun block hblock => ?_
  have hitem : ShownAll place.self (.generated :: bodyOrigins) (item :: identifiersBlock block) :=
    .generated hblock
  have hline := hi.append (hs.append (ht.append hitem))
  simpa [identifiersBlock, identifiersBlock_append, Stmt.identifiers,
    CSharp.Expr.identifiers] using hline

theorem writes_lowerFor {isAsync : Bool} {target iter : Python.Expr}
    (hb : Writes (place.under (.loop none)) bodyOrigins identifiersBlock body) :
    Writes place (iter.origins ++ (target.targetOrigins ++ .generated :: bodyOrigins))
      identifiersBlock (lowerFor names isAsync target iter body none) :=
  .map (writes_lowerForEach .nil hb) fun _ hloop => shownLines_singleton hloop

theorem writes_lowerForElse {isAsync : Bool} {target iter : Python.Expr}
    (hb : Writes (place.under (.loop none)) bodyOrigins identifiersBlock body)
    (he : Writes place elseOrigins identifiersBlock orelse) :
    Writes place (iter.origins ++
      (.generated :: (target.targetOrigins ++ .generated :: bodyOrigins) ++
      .generated :: elseOrigins)) identifiersBlock
        (lowerFor names isAsync target iter body (some orelse)) := by
  refine .behind (keepsPlace_fresh _) fun mark => ?_
  have hmark : ShownLines place.self [.generated] [setMark mark true] := .generated .nil
  refine .bind (writes_lowerForEach hmark hb) fun loop hloop =>
    .map he fun otherwise hotherwise => ?_
  have hlines := hloop.append (shownLines_byMark mark hotherwise)
  rw [List.append_assoc] at hlines
  exact hlines

/-- The cleanup is written before the `else`, which runs by a flag behind it. -/
theorem writes_lowerTry {handlers : Lower (List CSharp.Catch)}
    {otherwise finalbody : Option (Lower Block)}
    {handlerOrigins finalOrigins : List Origin}
    (hb : Writes place bodyOrigins identifiersBlock body)
    (hh : Writes place handlerOrigins identifiersCatches handlers)
    (hf : Writes place finalOrigins identifiersOtherwise (optionally finalbody))
    (he : ∀ flag, Writes place elseOrigins
      (fun last : Option Block => identifiersBlock (last.map (guarded (.name flag))).toList)
        (optionally otherwise)) :
    Writes place (.generated ::
      (bodyOrigins ++ .generated :: (handlerOrigins ++ finalOrigins) ++ elseOrigins))
      identifiersBlock (lowerTry body handlers otherwise finalbody) := by
  refine .passing (fun _ hs => hs.enterTry) fun flag => .bind hb fun block hblock =>
    .bind hh fun catches hcatches => ?_
  refine .bind hf fun cleanup hcleanup => .bind (he flag) fun last hlast => ?_
  refine .passing (fun _ hs => hs.exitTry) fun _ => .pure ?_
  have hflag : ShownAll place.self (.generated :: (handlerOrigins ++ finalOrigins))
      (flag :: (identifiersCatches catches ++ identifiersOtherwise cleanup)) :=
    .generated (hcatches.append hcleanup)
  have hlines : ShownAll place.self _ (flag :: _) := .generated ((hblock.append hflag).append hlast)
  simpa [setMark, identifiersBlock, identifiersBlock_append, Stmt.identifiers,
    CSharp.Expr.identifiers, CSharp.Expr.ofBool] using hlines

theorem writes_lowerMatch {subject : Python.Expr} {sections : Lower (List CSharp.Section)}
    (h : Writes (place.under .switch) origins identifiersSections sections) :
    Writes place (subject.origins ++ origins) identifiersBlock
      (lowerMatch names subject sections) := by
  refine .rendered (keepsPlace_lowerExpr names subject) (shown_lowerExpr names subject)
    fun lowered hs => ?_
  exact .map h.breakable fun _ hsections => shownLines_singleton (hs.append hsections)

end Compound

/-! ## Definitions -/

/-- The place of the statements of a function that is defined at `s`. -/
def functionPlace (definition : Python.FunctionDef) (s : State) : Place where
  self := (splitReceiver (roleOf (s.scopes.current.kind == .class_) definition.decorators)
    definition.params).1.or s.scopes.receiver
  generator := yieldsIn definition.body
  targets := []

theorem around_insideFunction (definition : Python.FunctionDef) (s : State) :
    (functionPlace definition s).Around (insideFunction names definition s) := by
  let inClass := s.scopes.current.kind == .class_
  let split := splitReceiver (roleOf inClass definition.decorators) definition.params
  let decorated := (lowerDecorators names (otherDecorators inClass definition.decorators) s).2
  let before := (lowerParams names split.2 decorated).2
  let frame := openFunction definition split.1 { kind := .function }
  have hreceiver : before.scopes.receiver = s.scopes.receiver :=
    (keepsPlace_lowerParams names split.2 decorated).1.scopes.receiverEq.trans
      (keepsPlace_lowerDecorators names _ s).1.scopes.receiverEq
  have hshape : frame.shape = (.function, split.1, yieldsIn definition.body, [], 0) :=
    shape_openFunction definition split.1
  simp only [Scope.Frame.shape, Prod.mk.injEq] at hshape
  obtain ⟨hkind, hself, hgenerator, htargets, -⟩ := hshape
  refine ⟨?_, hkind, hgenerator, htargets⟩
  -- the frame is that of no class, so its own receiver comes first and the one around second
  show (if frame.kind = .class_ then none else frame.receiver.or before.scopes.receiver) =
    split.1.or s.scopes.receiver
  rw [hkind, hself, hreceiver]
  rfl

theorem splitReceiver_free (params : List Python.Param) :
    splitReceiver .free params = (none, params) := by
  cases params with
  | nil => rfl
  | cons param rest =>
    unfold splitReceiver
    dsimp only
    split <;> rfl

/-- A function inside a function has the receiver of the one around it, and stands between it and
the names of its own body. -/
theorem writes_lowerFunction (definition : Python.FunctionDef) {body : Lower Block}
    (hsucceeds : Succeeds body)
    (hb : Writes ⟨place.self, yieldsIn definition.body, []⟩ origins identifiersBlock body) :
    Writes place (originsList (definition.head false) ++ origins.map
      (.within (.function definition))) identifiersBlock (lowerFunction names definition body) := by
  intro s hs
  have hclass : (s.scopes.current.kind == .class_) = false := by
    rw [hs.kind]
    rfl
  -- a function inside a function has the free role, so none of its parameters is taken for the
  -- instance
  have hplace : functionPlace definition s = ⟨place.self, yieldsIn definition.body, []⟩ := by
    unfold functionPlace
    rw [hclass, hs.receiver]
    show Place.mk ((splitReceiver .free definition.params).1.or place.self) _ _ = _
    rw [splitReceiver_free]
    rfl
  obtain ⟨hdecorators, hmiddle⟩ :=
    shown_lowerDecorators names (otherDecorators false definition.decorators) s hs.receiver
  obtain ⟨hparams, -⟩ := shown_lowerParams names
    (splitReceiver (roleOf false definition.decorators) definition.params).2 _ hmiddle
  obtain ⟨lines, last, after, hbody, hrun⟩ := lowerFunction_eq names definition hsucceeds s
  obtain ⟨_, _, hbody', -, hlines⟩ := hb _ (hplace ▸ around_insideFunction names definition s)
  have hfunction : Succeeds (lowerFunction names definition body) :=
    succeeds_lowerFunction hsucceeds
  obtain ⟨_, _, hrun', hgrows⟩ := hfunction s
  obtain ⟨rfl, rfl⟩ := run_unique hbody hbody'
  obtain ⟨rfl, rfl⟩ := run_unique hrun hrun'
  refine ⟨_, after, hrun, hs.of_grows hgrows, shownLines_singleton ?_⟩
  rw [Stmt.identifiers, identifiers_functionHeader, hclass, Python.FunctionDef.head,
    originsList_append, List.append_assoc]
  exact (shownAll_list hdecorators).append (hparams.append (hlines.within _))

theorem writes_lowerClass (definition : Python.ClassDef) {body : Lower ClassBody}
    (hb : Succeeds body) : Writes place [] identifiersBlock (lowerClass names definition body) := by
  intro s hs
  obtain ⟨_, _, _, _, after, lines, _, _, _, _, hrun, hlines⟩ :=
    lowerClass_run names definition hb s
  obtain ⟨_, _, hrun', hgrows⟩ := succeeds_lowerClass hb s
  obtain ⟨rfl, rfl⟩ := run_unique hrun hrun'
  refine ⟨_, after, hrun, hs.of_grows hgrows, ?_⟩
  rcases hlines with rfl | ⟨rfl, -⟩ <;> exact .nil

/-! ## Whole trees

The place is a parameter of the induction, since a loop, a `match` and a function change it for
their blocks. -/

mutual

theorem writes_lowerStmt (place : Place) : ∀ s : Python.Stmt,
    Writes place (s.kind.origins place.inside) identifiersBlock (lowerStmt names s)
  | ⟨kind, span⟩ => by
    rw [lowerStmt]
    exact (writes_lowerKind place kind).located span

theorem writes_lowerKind (place : Place) : ∀ kind : Python.StmtKind,
    Writes place (kind.origins place.inside) identifiersBlock (lowerKind names kind)
  | .expr value => .lift (keepsPlace_lowerExprStmt names value)
      (shown_lowerExprStmt names value place.inside)
  | .assign targets value => by
    rw [Python.StmtKind.origins, lowerKind]
    exact .lift (keepsPlace_lowerAssign names targets value) (shown_lowerAssign names targets value)
  | .annAssign target hint value =>
    .lift (keepsPlace_lowerAnnAssign names target hint value)
      (shown_lowerAnnAssign names target hint value place.inside)
  | .augAssign target op value => by
    rw [Python.StmtKind.origins, lowerKind]
    exact .lift (keepsPlace_lowerAugAssign names target op value)
      (shown_lowerAugAssign names target op value)
  | .ifChain branches orelse => by
    rw [Python.StmtKind.origins, lowerKind]
    refine .bind (writes_lowerBranches place branches) fun lowered hbranches => ?_
    exact .map (writes_lowerOrelse place orelse) fun otherwise hotherwise =>
      shownLines_singleton (hbranches.append hotherwise)
  | .whileLoop test body none => by
    rw [Python.StmtKind.origins, lowerKind, lowerOrelse]
    exact writes_lowerWhile (writes_lowerBlock (place.under (.loop none)) body)
  | .whileLoop test body (some orelse) => by
    rw [Python.StmtKind.origins, lowerKind, lowerOrelse]
    exact writes_lowerWhileElse (fun mark =>
      writes_lowerBlock (place.under (.loop (some mark))) body) (writes_lowerBlock place orelse)
  | .forLoop target iter body none isAsync => by
    rw [Python.StmtKind.origins, lowerKind, lowerOrelse]
    exact writes_lowerFor (writes_lowerBlock (place.under (.loop none)) body)
  | .forLoop target iter body (some orelse) isAsync => by
    rw [Python.StmtKind.origins, lowerKind, lowerOrelse]
    exact writes_lowerForElse (writes_lowerBlock (place.under (.loop none)) body)
      (writes_lowerBlock place orelse)
  | .tryBlock body handlers none finalbody => by
    rw [Python.StmtKind.origins, lowerKind, lowerOrelse]
    have helse (flag : String) : Writes place []
        (fun last : Option Block => identifiersBlock (last.map (guarded (.name flag))).toList)
          (optionally none) :=
      .pure .nil
    have htry := writes_lowerTry (writes_lowerBlock place body)
      (writes_lowerHandlers place handlers) (writes_lowerOrelse place finalbody) helse
    rwa [List.append_nil] at htry
  | .tryBlock body handlers (some orelse) finalbody => by
    rw [Python.StmtKind.origins, lowerKind, lowerOrelse]
    exact writes_lowerTry (writes_lowerBlock place body) (writes_lowerHandlers place handlers)
      (writes_lowerOrelse place finalbody) fun flag =>
        .map (writes_lowerBlock place orelse) fun _ h => shownLines_byMark flag h
  | .withBlock items body isAsync => by
    rw [Python.StmtKind.origins, lowerKind]
    refine .rendered (keepsPlace_lowerResources names items) (shown_lowerResources names items)
      fun resources hr => ?_
    exact .map (writes_lowerBlock place body) fun _ hblock =>
      shownLines_singleton (hr.append hblock)
  | .functionDef ⟨name, params, returns, body, decorators, isAsync⟩ => by
    rw [Python.StmtKind.origins, lowerKind]
    exact writes_lowerFunction names _ (succeeds_lowerBlock names body)
      (writes_lowerBlock ⟨place.self, yieldsIn body, []⟩ body)
  | .classDef ⟨name, bases, body, decorators⟩ => by
    rw [lowerKind]
    exact writes_lowerClass names _ (succeeds_lowerMembers names body)
  | .matchBlock subject cases => by
    rw [Python.StmtKind.origins, lowerKind]
    exact writes_lowerMatch (writes_lowerCases (place.under .switch) (isTuple subject) cases)
  | .returnStmt value => writes_lowerReturn names value
  | .raiseStmt exc cause => by
    rw [Python.StmtKind.origins, lowerKind]
    exact .lift (keepsPlace_lowerRaise names exc cause) (shown_lowerRaise names exc cause)
  | .deleteStmt targets => by
    rw [Python.StmtKind.origins, lowerKind]
    exact .lift (keepsPlace_lowerDeletes names targets) (shown_lowerDeletes names targets)
  | .assertStmt test msg => by
    rw [Python.StmtKind.origins, lowerKind]
    exact .lift (keepsPlace_lowerAssert names test msg) (shown_lowerAssert names test msg)
  | .importStmt entries =>
    .lift (keepsPlace_lowerImport entries)
      (shown_nameless (keepsPlace_lowerImport entries) fun _ => rfl)
  | .importFrom path entries wildcard =>
    .lift (keepsPlace_lowerImportFrom path entries wildcard)
      (shown_lowerImportFrom path entries wildcard)
  | .globalStmt ids => .lift (keepsPlace_lowerGlobal ids)
      (shown_nameless (keepsPlace_lowerGlobal ids) fun _ => rfl)
  | .nonlocalStmt ids =>
    .lift (keepsPlace_lowerNonlocal ids)
      (shown_nameless (keepsPlace_lowerNonlocal ids) fun _ => rfl)
  | .passStmt => .pure .nil
  | .breakStmt => writes_lowerBreak
  | .continueStmt => .pure .nil
  | .comment _ => .pure .nil
  | .unsupported kind text => .lift (keepsPlace_lowerUnsupported kind text)
      (shown_lowerUnsupported kind text)

theorem writes_lowerBlock (place : Place) : ∀ body : List Python.Stmt,
    Writes place (originsBlock place.inside body) identifiersBlock (lowerBlock names body)
  | [] => .pure .nil
  | ⟨kind, span⟩ :: rest => by
    rw [lowerBlock, originsBlock]
    refine .bind (writes_lowerStmt place ⟨kind, span⟩) fun lowered hlowered => ?_
    refine .map (writes_lowerBlock place rest) fun others hothers => ?_
    rw [identifiersBlock_append]
    exact hlowered.append hothers

theorem writes_lowerOrelse (place : Place) : ∀ body : Option (List Python.Stmt),
    Writes place (originsOrelse place.inside body) identifiersOtherwise
      (optionally (lowerOrelse names body))
  | none => by
    rw [lowerOrelse]
    exact .pure .nil
  | some body => by
    rw [lowerOrelse]
    exact .map (writes_lowerBlock place body) fun _ hblock => hblock

theorem writes_lowerBranches (place : Place) : ∀ branches : List Python.Branch,
    Writes place (originsBranches place.inside branches) identifiersBranches
      (lowerBranches names branches)
  | [] => .pure .nil
  | ⟨test, body⟩ :: rest => by
    rw [lowerBranches, originsBranches]
    refine .rendered (keepsPlace_lowerExpr names test) (shown_lowerExpr names test)
      fun lowered ht => ?_
    refine .bind (writes_lowerBlock place body) fun block hblock => ?_
    exact .map (writes_lowerBranches place rest) fun others hothers =>
      ht.append (hblock.append hothers)

theorem writes_lowerHandlers (place : Place) : ∀ handlers : List Python.Handler,
    Writes place (originsHandlers place.inside handlers) identifiersCatches
      (lowerHandlers names handlers)
  | [] => .pure .nil
  | ⟨types, name, body, span⟩ :: rest => by
    rw [lowerHandlers, originsHandlers]
    refine .moveTo span fun _ => ?_
    refine .rendered (keepsPlace_lowerCaught names types name) (shown_lowerCaught names types name)
      fun caught hc => ?_
    refine .bind (writes_lowerBlock place body) fun block hblock => ?_
    exact .map (writes_lowerHandlers place rest) fun others hothers =>
      hc.append (hblock.append hothers)

theorem writes_lowerCases (place : Place) (tupleSubject : Bool) : ∀ cases : List Python.MatchCase,
      Writes place (originsCases place.inside cases) identifiersSections
        (lowerCases names tupleSubject cases)
  | [] => .pure .nil
  | ⟨pattern, guard, body, span⟩ :: rest => by
    rw [lowerCases, originsCases]
    refine .moveTo span fun _ => ?_
    refine .rendered (keepsPlace_lowerLabel names tupleSubject pattern guard)
      (shown_lowerLabel names tupleSubject pattern guard) fun label hlabel => ?_
    refine .bind (writes_lowerBlock place body) fun block hblock => ?_
    refine .map (writes_lowerCases place tupleSubject rest) fun others hothers => ?_
    rw [identifiersSections, identifiersBlock_sectionBody, ← List.append_assoc]
    exact hlabel.append (hblock.append hothers)

end

/-! ## Methods -/

/-- The name is `this` exactly where scoping finds the parameter `r` of the method in it. -/
def Resolved (r : String) : Origin → String → Prop
  | .source id binders, text => text = "this" ↔ id = r ∧ (Origin.source id binders).Free
  | .generated, _ => True

theorem Shown.resolved_iff {r text : String} {origin : Origin} (h : Shown (some r) origin text) :
    Resolved r origin text ↔ ∀ binders, origin = .source r binders → origin.Free := by
  cases origin with
  | generated => exact ⟨fun _ _ heq => (nomatch heq), fun _ => trivial⟩
  | source id binders =>
    have htext : text = "this" ↔ id = r := by
      rw [show text = spelling (some r) id from h, spelling_eq_this_iff, Option.some.injEq, eq_comm]
    constructor
    · intro hresolved binders' heq
      obtain ⟨rfl, rfl⟩ := Origin.source.inj heq
      exact (hresolved.1 (htext.2 rfl)).2
    · intro hfree
      refine ⟨fun hthis => ?_, fun hid => htext.2 hid.1⟩
      obtain rfl := htext.1 hthis
      exact ⟨rfl, hfree binders rfl⟩

theorem ShownAll.resolved_iff {r : String} {texts : List String}
    (h : ShownAll (some r) origins texts) : List.Forall₂ (Resolved r) origins texts ↔
      ∀ binders, .source r binders ∈ origins → (Origin.source r binders).Free := by
  induction h with
  | nil => exact ⟨fun _ _ hmem => absurd hmem List.not_mem_nil, fun _ => .nil⟩
  | cons hshown _ ih =>
    rw [List.forall₂_cons, hshown.resolved_iff, ih]
    constructor
    · rintro ⟨hhead, htail⟩ binders hmem
      rcases List.mem_cons.1 hmem with heq | hmem
      · exact heq ▸ hhead binders heq.symm
      · exact htail binders hmem
    · intro hfree
      refine ⟨fun binders heq => ?_,
        fun binders hmem => hfree binders (List.mem_cons_of_mem _ hmem)⟩
      exact heq ▸ hfree binders (heq ▸ List.mem_cons_self)

theorem shown_classHead (definition : Python.ClassDef) (s : State) :
    List.Forall₂ (ShownAs s.scopes.receiver) definition.decorators
      (classHead names definition s).1 ∧
      List.Forall₂ (ShownAs s.scopes.receiver) (definition.bases.flatMap Python.Arg.base)
        (classHead names definition s).2.1 := by
  have hnoted (noted : State) (h : noted.scopes.receiver = s.scopes.receiver) :
      List.Forall₂ (ShownAs s.scopes.receiver) definition.decorators
          (lowerDecorators names definition.decorators noted).1 ∧
        List.Forall₂ (ShownAs s.scopes.receiver) (definition.bases.flatMap Python.Arg.base)
          (lowerBases names definition.name definition.bases
            (lowerDecorators names definition.decorators noted).2).1 := by
    obtain ⟨hdecorators, hmiddle⟩ := shown_lowerDecorators names definition.decorators noted h
    exact ⟨hdecorators, (shown_lowerBases names definition.name definition.bases _ hmiddle).1⟩
  unfold classHead
  dsimp only
  -- a class in a function comes with a note, which leaves the receiver as it is
  split
  · exact hnoted _ rfl
  · exact hnoted s rfl

/-- A class is moved out of the method that it is defined in. The names in its decorators and bases
are still written by the name of the instance there, and are what scoping asks for exactly if
nothing around them rebinds it. -/
theorem class_head_receiver_by_name (definition : Python.ClassDef) (s : State) : ∃ type lines after,
    lowerKind names (.classDef definition) s = .ok (lines, after) ∧
      (lines = [.type type] ∨ lines = [] ∧ type ∈ after.types) ∧
      ShownAll s.scopes.receiver (originsList definition.head)
        (identifiersList type.decorators ++ identifiersList type.bases) ∧
      ∀ r, s.scopes.receiver = some r →
        (List.Forall₂ (Resolved r) (originsList definition.head)
            (identifiersList type.decorators ++ identifiersList type.bases) ↔
          ∀ binders, .source r binders ∈ originsList definition.head →
            ∀ binder ∈ binders, ¬binder.Rebinds r) := by
  obtain ⟨name, bases, body, decorators⟩ := definition
  let definition : Python.ClassDef := ⟨name, bases, body, decorators⟩
  obtain ⟨lowered, last, -, hrun⟩ :=
    lowerClass_closed names definition (succeeds_lowerMembers names body) s
  let type := loweredClass names definition s lowered last
  obtain ⟨hdecorators, hbases⟩ := shown_classHead names definition s
  have hshown : ShownAll s.scopes.receiver (originsList definition.head)
      (identifiersList type.decorators ++ identifiersList type.bases) := by
    rw [Python.ClassDef.head, originsList_append]
    exact (shownAll_list hdecorators).append (shownAll_list hbases)
  refine ⟨type, _, _, hrun, placeClass_mem _ _ _, hshown, fun r hr => ?_⟩
  rw [hr] at hshown
  exact ShownAll.resolved_iff hshown

theorem functionPlace_method {definition : Python.FunctionDef} {receiver : Python.Param} {s : State}
    (hclass : s.scopes.current.kind = .class_)
    (hrole : roleOf true definition.decorators = .ofInstance)
    (hfirst : definition.params.head? = some receiver) (hkind : receiver.kind = .normal) :
    functionPlace definition s = ⟨some receiver.name, yieldsIn definition.body, []⟩ := by
  obtain ⟨others, hparams⟩ := List.head?_eq_some_iff.1 hfirst
  have hsplit : splitReceiver .ofInstance definition.params = (some receiver.name, others) := by
    rw [hparams, splitReceiver, hkind]
    rfl
  unfold functionPlace
  rw [hclass]
  show Place.mk ((splitReceiver (roleOf true definition.decorators) definition.params).1.or
    s.scopes.receiver) _ _ = _
  rw [hrole, hsplit]
  rfl

/-- In the body of a method, the name of its first parameter is `this` wherever it stands, and no
other name is. That is what scoping asks for exactly if no function, lambda or comprehension around
the name rebinds it. -/
theorem method_receiver_by_name (names : LibraryNames) (definition : Python.FunctionDef)
    (receiver : Python.Param) (s : State) (hclass : s.scopes.current.kind = .class_)
    (hrole : roleOf true definition.decorators = .ofInstance)
    (hfirst : definition.params.head? = some receiver) (hkind : receiver.kind = .normal) :
    ∃ function after, lowerKind names (.functionDef definition) s =
      .ok ([.function function], after) ∧
      ShownAll (some receiver.name) definition.bodyOrigins (identifiersBlock function.body) ∧
      (List.Forall₂ (Resolved receiver.name) definition.bodyOrigins
        (identifiersBlock function.body) ↔
        ∀ binders, .source receiver.name binders ∈ definition.bodyOrigins →
          ∀ binder ∈ binders, ¬binder.Rebinds receiver.name) := by
  have hplace := functionPlace_method hclass hrole hfirst hkind
  obtain ⟨name, params, returns, body, decorators, isAsync⟩ := definition
  let definition : Python.FunctionDef := ⟨name, params, returns, body, decorators, isAsync⟩
  obtain ⟨lines, last, after, hbody, hrun⟩ :=
    lowerFunction_eq names definition (succeeds_lowerBlock names body) s
  obtain ⟨_, _, hbody', -, hlines⟩ := writes_lowerBlock names ⟨some receiver.name, yieldsIn body,
    []⟩ body _ (hplace ▸ around_insideFunction names definition s)
  obtain ⟨rfl, rfl⟩ := Prod.mk.inj (Except.ok.inj (hbody.symm.trans hbody'))
  exact ⟨_, after, hrun, hlines, ShownAll.resolved_iff hlines⟩

/-- Inside the body of a class. -/
def inClassBody : State :=
  { scopes := { nested := [{ kind := .class_ }] } }

/-- A plain parameter with the name `self`. -/
def selfParam : Python.Param :=
  ⟨"self", .normal, none, none⟩

/-- A method that returns a value. -/
def returning (value : Python.Expr) : Python.FunctionDef :=
  ⟨"m", [selfParam], none, [⟨.returnStmt (some value), .first⟩], [], false⟩

/-- `lambda other: [self for item in other]` -/
def receiverInside : Python.Expr :=
  .lambda [⟨"other", .normal, none, none⟩]
    (.comprehension .list (.name "self") none [.forIn (.name "item") (.name "other")])

theorem method_receiver_by_name_receiverInside :
    inClassBody.scopes.current.kind = .class_ ∧
      roleOf true (returning receiverInside).decorators = .ofInstance ∧
      (returning receiverInside).params.head? = some selfParam ∧ selfParam.kind = .normal ∧
      ∃ function after,
        lowerKind {} (.functionDef (returning receiverInside)) inClassBody =
          .ok ([.function function], after) ∧
        ShownAll (some "self") (returning receiverInside).bodyOrigins
          (identifiersBlock function.body) ∧
        (List.Forall₂ (Resolved "self") (returning receiverInside).bodyOrigins
          (identifiersBlock function.body) ↔
          ∀ binders, .source "self" binders ∈ (returning receiverInside).bodyOrigins →
            ∀ binder ∈ binders, ¬binder.Rebinds "self") :=
  ⟨rfl, by decide, rfl, rfl,
    method_receiver_by_name {} (returning receiverInside) selfParam inClassBody rfl
      (by decide) rfl rfl⟩

/-- `lambda self: self` -/
def receiverRebound : Python.Expr :=
  .lambda [selfParam] (.name "self")

/-- The parameter of the lambda is not that of the method, and yet it is `this`. -/
theorem receiverRebound_is_this : ∃ function after,
    lowerKind {} (.functionDef (returning receiverRebound)) inClassBody =
      .ok ([.function function], after) ∧
      (returning receiverRebound).bodyOrigins =
        [.source "self" [.lambda [selfParam] (.name "self")]] ∧
      identifiersBlock function.body = ["this"] ∧
      ¬List.Forall₂ (Resolved "self")
        (returning receiverRebound).bodyOrigins (identifiersBlock function.body) := by
  refine ⟨_, _, rfl, rfl, rfl, ?_⟩
  intro h
  have hresolved : Resolved "self" (.source "self" [.lambda [selfParam] (.name "self")]) "this" :=
    (List.forall₂_cons.1 h).1
  have hfree := (hresolved.1 rfl).2
  exact hfree _ List.mem_cons_self (.inl List.mem_cons_self)

end PythonToCSharp.Lowering
