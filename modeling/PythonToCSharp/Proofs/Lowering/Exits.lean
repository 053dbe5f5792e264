import PythonToCSharp.Proofs.Lowering.Balance
import PythonToCSharp.Proofs.Lowering.OwnLines

/-!
The lines by which a function hands something to its caller or ends. `exitsOf` are those among lines
that yield or return.

The exits in what is lowered are, up to order, those that the statements of the body ask for: a
`yield` that is a statement gives a value to the caller, and a `return` ends an iterator or returns,
by the generator mark of the frame. The order differs where a `try` has both an `else` and a
`finally`, of which the second is written first.
-/

namespace PythonToCSharp.CSharp

/-- How a line leaves a function, for good or until the next element is asked for. -/
inductive Exit where
  | yieldReturn
  | yieldBreak
  | returnValue
  | returnBare
  deriving DecidableEq, Repr

/-- How a statement leaves the function itself, if it does. -/
def Stmt.exit? : Stmt → Option Exit
  | .yieldReturn _ => some .yieldReturn
  | .yieldBreak => some .yieldBreak
  | .return_ (some _) => some .returnValue
  | .return_ none => some .returnBare
  | _ => none

/-- The choice of the lines that leave the function. -/
def Pick.exits : Pick Exit where
  choose := Stmt.exit?
  passes s h := by
    cases s with
    | return_ | yieldReturn | yieldBreak => cases h
    | _ => rfl

/-- The exits among lines. -/
abbrev exitsOf (lines : List Stmt) : List Exit :=
  Pick.exits.among lines

/-- The exits of a body's own blocks. -/
abbrev blockExits (block : List Stmt) : List Exit :=
  Pick.exits.inside block

theorem mem_exitsOf {exit : Exit} {lines : List Stmt} :
    exit ∈ exitsOf lines ↔ ∃ line ∈ lines, line.exit? = some exit :=
  List.mem_filterMap

end PythonToCSharp.CSharp

namespace PythonToCSharp.Python

open CSharp (Exit)

/-- The exits that a statement asks for itself, in an iterator or not. -/
def StmtKind.exits (generator : Bool) : StmtKind → List Exit
  | .expr (.yield _) => [.yieldReturn]
  | .expr (.yieldFrom _) => [.yieldReturn]
  | .returnStmt value =>
    if generator then [.yieldBreak] else if value.isSome then [.returnValue] else [.returnBare]
  | _ => []

/-- The exits that a body asks for. -/
def exitsIn (generator : Bool) (body : List Stmt) : List Exit :=
  (ownStatements body).flatMap fun s => s.kind.exits generator

/-- The exits that a statement asks for, its blocks included. -/
def StmtKind.allExits (generator : Bool) (kind : StmtKind) : List Exit :=
  kind.exits generator ++ kind.blocks.flatMap (exitsIn generator)

section Blocks

variable {generator : Bool} (body : List Stmt) (orelse : Option (List Stmt))

theorem allExits_ifChain (branches : List Branch) :
    (StmtKind.ifChain branches orelse).allExits generator =
      (branches.map Branch.body).flatMap (exitsIn generator) ++
        orelse.toList.flatMap (exitsIn generator) :=
  List.flatMap_append

theorem allExits_whileLoop (test : Expr) :
    (StmtKind.whileLoop test body orelse).allExits generator =
      exitsIn generator body ++ orelse.toList.flatMap (exitsIn generator) := rfl

theorem allExits_forLoop (target iter : Expr) (isAsync : Bool) :
    (StmtKind.forLoop target iter body orelse isAsync).allExits generator =
      exitsIn generator body ++ orelse.toList.flatMap (exitsIn generator) := rfl

theorem allExits_tryBlock (handlers : List Handler) (finalbody : Option (List Stmt)) :
    (StmtKind.tryBlock body handlers orelse finalbody).allExits generator =
      exitsIn generator body ++ ((handlers.map Handler.body).flatMap (exitsIn generator) ++
        (orelse.toList.flatMap (exitsIn generator) ++
          finalbody.toList.flatMap (exitsIn generator))) :=
  congrArg _ (List.flatMap_append.trans (congrArg _ List.flatMap_append))

theorem allExits_withBlock (items : List WithItem) (isAsync : Bool) :
    (StmtKind.withBlock items body isAsync).allExits generator = exitsIn generator body :=
  List.append_nil _

end Blocks

theorem exitsIn_cons (generator : Bool) (s : Stmt) (rest : List Stmt) :
    exitsIn generator (s :: rest) = s.kind.allExits generator ++ exitsIn generator rest := by
  obtain ⟨kind, span⟩ := s
  simp only [exitsIn, ownStatements, reachedBlock, reached_eq, StmtKind.allExits,
    List.flatMap_append, List.flatMap_cons, List.flatMap_assoc]
  rfl

end PythonToCSharp.Python

namespace PythonToCSharp.Lowering

open CSharp (Exit blockExits exitsOf ownBranches ownCatches ownLines ownOptional ownSections)
open Python (exitsIn)

variable {α β : Type} {generator : Bool} {exits first rest : List Exit}

/-! ## Steps and their exits -/

/-- The step leaves the generator mark of the frame as it is. -/
def KeepsMark (step : Render α) : Prop :=
  ∀ s, (step s).2.scopes.current.isGenerator = s.scopes.current.isGenerator

theorem KeepsPlace.keepsMark {x : Render α} (h : KeepsPlace x) : KeepsMark x :=
  fun s => (h s).1.scopes.current.isGenerator

theorem keepsMark_modifyFrame {f : Scope.Frame → Scope.Frame}
    (h : ∀ frame : Scope.Frame, (f frame).isGenerator = frame.isGenerator) :
    KeepsMark (modifyFrame f) := by
  intro s
  show (s.scopes.modifyCurrent f).current.isGenerator = _
  rw [Scope.Stack.current_modifyCurrent, h]

theorem keepsMark_enterTry : KeepsMark enterTry := by
  intro s
  show (s.scopes.modifyCurrent fun _ => s.scopes.current.enterTry.2).current.isGenerator = _
  rw [Scope.Stack.current_modifyCurrent]
  exact s.scopes.current.grows_enterTry.isGenerator

/-- The step succeeds under every frame with the generator mark, and what it gives has the exits, up
to order. -/
def Exits (generator : Bool) (exits : List Exit) (found : α → List Exit) (step : Lower α) : Prop :=
  ∀ s, s.scopes.current.isGenerator = generator → ∃ a after, step s = .ok (a, after) ∧
    after.scopes.current.isGenerator = generator ∧ (found a).Perm exits

namespace Exits

variable {found : α → List Exit} {found' : β → List Exit}

theorem pure {a : α} (h : (found a).Perm exits) : Exits generator exits found (Pure.pure a) :=
  fun s hs => ⟨a, s, rfl, hs, h⟩

theorem bind {x : Lower α} {f : α → Lower β} (hx : Exits generator first found x)
    (hf : ∀ a, (found a).Perm first → Exits generator exits found' (f a)) :
    Exits generator exits found' (x >>= f) := by
  intro s hs
  obtain ⟨a, middle, hrun, hmiddle, ha⟩ := hx s hs
  obtain ⟨b, after, hrun', hafter, hb⟩ := hf a ha middle hmiddle
  exact ⟨b, after, (bind_run hrun).trans hrun', hafter, hb⟩

theorem map {x : Lower α} {f : α → β} (hx : Exits generator first found x)
    (hf : ∀ a, (found a).Perm first → (found' (f a)).Perm exits) :
    Exits generator exits found' (do return f (← x)) :=
  bind hx fun a ha => pure (hf a ha)

/-- A step that keeps the mark comes first. -/
theorem behind {x : Render α} {f : α → Lower β} (hx : KeepsMark x)
    (hf : ∀ a, Exits generator exits found' (f a)) :
    Exits generator exits found' (liftM x >>= f) := by
  intro s hs
  exact hf (x s).1 (x s).2 ((hx s).trans hs)

theorem lift {x : Render α} (hx : KeepsPlace x) (h : ∀ s, (found (x s).1).Perm exits) :
    Exits generator exits found (liftM x : Lower α) :=
  fun s hs => ⟨(x s).1, (x s).2, rfl, (hx.keepsMark s).trans hs, h s⟩

/-- A step that gives plain lines. -/
theorem plain {x : Render Block} (hx : KeepsPlace x) (hp : GivesPlain x) :
    Exits generator [] blockExits (liftM x : Lower Block) :=
  lift hx fun s => .of_eq (CSharp.Pick.exits.inside_plain (hp s))

theorem located {step : Lower α} (h : Exits generator exits found step) (span : Python.Span) :
    Exits generator exits found (located span step) := by
  intro s hs
  obtain ⟨a, middle, hrun, hmiddle, ha⟩ := h { s with span := span } hs
  exact ⟨a, { middle with span := s.span }, located_eq hrun, hmiddle, ha⟩

theorem breakable {step : Lower α} (h : Exits generator exits found step)
    (target : Scope.BreakTarget) : Exits generator exits found (breakable target step) := by
  refine behind (keepsMark_modifyFrame fun _ => rfl) fun _ => bind h fun a ha => ?_
  exact behind (keepsMark_modifyFrame fun _ => rfl) fun _ => pure ha

end Exits

/-! ## Statements without blocks -/

variable (names : LibraryNames)

theorem exits_lowerExprStmt (value : Python.Expr) :
    Exits generator ((Python.StmtKind.expr value).allExits generator) blockExits
      (liftM (lowerExprStmt names value) : Lower Block) := by
  have hplace := keepsPlace_lowerExprStmt names value
  cases value with
  | yield value =>
    refine .lift hplace fun s => ?_
    cases value with
    | none => exact .refl _
    | some value => exact .refl _
  | yieldFrom source => exact .lift hplace fun s => .refl _
  | _ => exact .plain hplace (givesPlain_lowerExprStmt names rfl)

/-- What becomes of `return` depends on the mark alone. -/
theorem exits_lowerReturn (value : Option Python.Expr) :
    Exits generator ((Python.StmtKind.returnStmt value).allExits generator) blockExits
      (liftM (lowerReturn names value) : Lower Block) := by
  intro s hs
  refine ⟨_, _, rfl, ((keepsPlace_lowerReturn names value).keepsMark s).trans hs, ?_⟩
  show (blockExits ((if s.scopes.current.isGenerator then _ else _ : Render Block) s).1).Perm _
  rw [hs]
  cases generator with
  | true => cases value <;> exact .refl _
  | false => cases value <;> exact .refl _

/-! ## Compound statements -/

section Compound

variable {names : LibraryNames} {body orelse : Lower Block} {bodyExits elseExits : List Exit}

theorem exits_lowerWhile {test : Python.Expr} (hb : Exits generator bodyExits blockExits body) :
    Exits generator bodyExits blockExits (lowerWhile names test body none) := by
  refine .behind (keepsPlace_lowerExpr names test).keepsMark fun test =>
    .map (hb.breakable _) fun block hblock => ?_
  simpa using hblock

theorem exits_lowerWhileElse {test : Python.Expr} (hb : Exits generator bodyExits blockExits body)
    (he : Exits generator elseExits blockExits orelse) :
    Exits generator (bodyExits ++ elseExits) blockExits
      (lowerWhile names test body (some orelse)) := by
  refine .behind (keepsPlace_fresh _).keepsMark fun mark => ?_
  refine .behind (keepsPlace_lowerExpr names test).keepsMark fun test => ?_
  refine .bind (hb.breakable _) fun block hblock => .map he fun otherwise hotherwise => ?_
  simpa [among_guarded] using hblock.append hotherwise

theorem exits_lowerForEach {isAsync : Bool} {target iter : Python.Expr} {start : Block}
    (hs : blockExits start = []) (hb : Exits generator bodyExits blockExits body) :
    Exits generator bodyExits (fun loop => exitsOf loop.own)
      (lowerForEach names isAsync target iter start body) := by
  refine .behind (keepsPlace_recordTarget target).keepsMark fun _ => ?_
  refine .behind (keepsPlace_lowerExpr names iter).keepsMark fun iter => ?_
  refine .behind (keepsPlace_fresh _).keepsMark fun item => ?_
  refine .behind (keepsPlace_lowerTarget names target).keepsMark fun target => ?_
  refine .map (hb.breakable _) fun block hblock => ?_
  simpa [hs] using hblock

theorem exits_lowerFor {isAsync : Bool} {target iter : Python.Expr}
    (hb : Exits generator bodyExits blockExits body) :
    Exits generator bodyExits blockExits (lowerFor names isAsync target iter body none) := by
  refine .map (exits_lowerForEach rfl hb) fun loop hloop => ?_
  simpa using hloop

theorem exits_lowerForElse {isAsync : Bool} {target iter : Python.Expr}
    (hb : Exits generator bodyExits blockExits body)
    (he : Exits generator elseExits blockExits orelse) :
    Exits generator (bodyExits ++ elseExits) blockExits
      (lowerFor names isAsync target iter body (some orelse)) := by
  refine .behind (keepsPlace_fresh _).keepsMark fun mark => ?_
  refine .bind (exits_lowerForEach rfl hb) fun loop hloop => .map he fun otherwise hotherwise => ?_
  simpa [among_guarded] using hloop.append hotherwise

/-- The cleanup is written before the `else`, which runs by a flag behind it. -/
theorem exits_lowerTry {handlers : Lower (List CSharp.Catch)}
    {otherwise finalbody : Option (Lower Block)}
    {handlerExits finalExits : List Exit} (hb : Exits generator bodyExits blockExits body)
    (hh : Exits generator handlerExits (fun catches => exitsOf (ownCatches catches)) handlers)
    (he : Exits generator elseExits (fun block => exitsOf (ownOptional block))
      (optionally otherwise))
    (hf : Exits generator finalExits (fun block => exitsOf (ownOptional block))
      (optionally finalbody)) :
    Exits generator (bodyExits ++ (handlerExits ++ (elseExits ++ finalExits))) blockExits
      (lowerTry body handlers otherwise finalbody) := by
  refine .behind keepsMark_enterTry fun flag => .bind hb fun block hblock =>
    .bind hh fun catches hcatches => ?_
  refine .bind hf fun cleanup hcleanup => .bind he fun last hlast => ?_
  refine .behind (keepsMark_modifyFrame fun _ => rfl) fun _ => .pure ?_
  have helse : blockExits (last.map (guarded (.name flag))).toList =
      exitsOf (ownOptional last) := by
    cases last with
    | none => rfl
    | some block => simp [among_guarded]
  have hends : (exitsOf (ownOptional cleanup) ++ exitsOf (ownOptional last)).Perm
      (elseExits ++ finalExits) :=
    (hcleanup.append hlast).trans List.perm_append_comm
  have hall := hblock.append (hcatches.append hends)
  simpa [setMark, helse] using hall

theorem exits_lowerMatch {subject : Python.Expr} {sections : Lower (List CSharp.Section)}
    (h : Exits generator exits (fun lowered => exitsOf (ownSections lowered)) sections) :
    Exits generator exits blockExits (lowerMatch names subject sections) := by
  refine .behind (keepsPlace_lowerExpr names subject).keepsMark fun subject => ?_
  refine .map (h.breakable _) fun lowered hlowered => ?_
  simpa using hlowered

end Compound

/-! ## Definitions -/

/-- What a definition hands to a caller is not handed over by the body around it. -/
theorem exits_lowerFunction (definition : Python.FunctionDef) {body : Lower Block}
    (hb : Succeeds body) : Exits generator [] blockExits (lowerFunction names definition body) := by
  intro s hs
  obtain ⟨_, _, function, _, after, _, _, _, _, _, hrun⟩ := lowerFunction_run names definition hb s
  obtain ⟨block, after', hrun', hg⟩ := succeeds_lowerFunction hb s
  rw [hrun] at hrun'
  cases hrun'
  exact ⟨_, after, hrun, hg.scopes.current.isGenerator.trans hs, .refl _⟩

theorem exits_lowerClass (definition : Python.ClassDef) {body : Lower ClassBody}
    (hb : Succeeds body) : Exits generator [] blockExits (lowerClass names definition body) := by
  intro s hs
  obtain ⟨_, _, type, _, after, lines, _, _, _, _, hrun, hlines⟩ :=
    lowerClass_run names definition hb s
  obtain ⟨block, after', hrun', hg⟩ := succeeds_lowerClass hb s
  rw [hrun] at hrun'
  cases hrun'
  refine ⟨_, after, hrun, hg.scopes.current.isGenerator.trans hs, ?_⟩
  rcases hlines with rfl | ⟨rfl, -⟩ <;> exact .refl _

/-! ## Whole trees -/

mutual

theorem exits_lowerStmt (generator : Bool) :
    ∀ s : Python.Stmt, Exits generator (s.kind.allExits generator) blockExits (lowerStmt names s)
  | ⟨kind, span⟩ => by
    rw [lowerStmt]
    exact (exits_lowerKind generator kind).located span

theorem exits_lowerKind (generator : Bool) :
    ∀ kind : Python.StmtKind,
      Exits generator (kind.allExits generator) blockExits (lowerKind names kind)
  | .expr value => exits_lowerExprStmt names value
  | .assign targets value =>
    .plain (keepsPlace_lowerAssign names targets value) (givesPlain_lowerAssign names targets value)
  | .annAssign target hint value =>
    .plain (keepsPlace_lowerAnnAssign names target hint value)
      (givesPlain_lowerAnnAssign names target hint value)
  | .augAssign target op value =>
    .plain (keepsPlace_lowerAugAssign names target op value)
      (givesPlain_lowerAugAssign names target op value)
  | .ifChain branches orelse => by
    rw [lowerKind, Python.allExits_ifChain]
    refine .bind (exits_lowerBranches generator branches) fun lowered hlowered => ?_
    refine .map (exits_lowerOrelse generator orelse) fun otherwise hotherwise => ?_
    simpa using hlowered.append hotherwise
  | .whileLoop test body none => by
    rw [lowerKind, lowerOrelse, Python.allExits_whileLoop, Option.toList_none, List.flatMap_nil,
      List.append_nil]
    exact exits_lowerWhile (exits_lowerBlock generator body)
  | .whileLoop test body (some orelse) => by
    rw [lowerKind, lowerOrelse, Python.allExits_whileLoop, Option.toList_some,
      List.flatMap_singleton]
    exact exits_lowerWhileElse (exits_lowerBlock generator body) (exits_lowerBlock generator orelse)
  | .forLoop target iter body none isAsync => by
    rw [lowerKind, lowerOrelse, Python.allExits_forLoop, Option.toList_none, List.flatMap_nil,
      List.append_nil]
    exact exits_lowerFor (exits_lowerBlock generator body)
  | .forLoop target iter body (some orelse) isAsync => by
    rw [lowerKind, lowerOrelse, Python.allExits_forLoop, Option.toList_some, List.flatMap_singleton]
    exact exits_lowerForElse (exits_lowerBlock generator body) (exits_lowerBlock generator orelse)
  | .tryBlock body handlers orelse finalbody => by
    rw [lowerKind, Python.allExits_tryBlock]
    exact exits_lowerTry (exits_lowerBlock generator body) (exits_lowerHandlers generator handlers)
      (exits_lowerOrelse generator orelse) (exits_lowerOrelse generator finalbody)
  | .withBlock items body isAsync => by
    rw [lowerKind, Python.allExits_withBlock]
    refine .behind (keepsPlace_lowerResources names items).keepsMark fun resources => ?_
    refine .map (exits_lowerBlock generator body) fun block hblock => ?_
    simpa using hblock
  | .functionDef ⟨name, params, returns, body, decorators, isAsync⟩ => by
    rw [lowerKind]
    exact exits_lowerFunction names _ (succeeds_lowerBlock names body)
  | .classDef ⟨name, bases, body, decorators⟩ => by
    rw [lowerKind]
    exact exits_lowerClass names _ (succeeds_lowerMembers names body)
  | .matchBlock subject cases => by
    rw [lowerKind]
    exact exits_lowerMatch (exits_lowerCases generator (isTuple subject) cases)
  | .returnStmt value => exits_lowerReturn names value
  | .raiseStmt exc cause => .plain (keepsPlace_lowerRaise names exc cause)
      (givesPlain_lowerRaise names exc cause)
  | .deleteStmt targets => .plain (keepsPlace_lowerDeletes names targets)
      (givesPlain_lowerDeletes names targets)
  | .assertStmt test msg => .plain (keepsPlace_lowerAssert names test msg)
      (givesPlain_lowerAssert names test msg)
  | .importStmt entries => .plain (keepsPlace_lowerImport entries) (givesPlain_lowerImport entries)
  | .importFrom path entries wildcard =>
    .plain (keepsPlace_lowerImportFrom path entries wildcard)
      (givesPlain_lowerImportFrom path entries wildcard)
  | .globalStmt ids => .plain (keepsPlace_lowerGlobal ids) (givesPlain_lowerGlobal ids)
  | .nonlocalStmt ids => .plain (keepsPlace_lowerNonlocal ids) (givesPlain_lowerNonlocal ids)
  | .passStmt => .pure (.refl _)
  | .breakStmt => .plain keepsPlace_lowerBreak givesPlain_lowerBreak
  | .continueStmt => .pure (.refl _)
  | .comment _ => .pure (.refl _)
  | .unsupported kind text => .plain (keepsPlace_lowerUnsupported kind text)
      (givesPlain_lowerUnsupported kind text)

theorem exits_lowerBlock (generator : Bool) :
    ∀ body : List Python.Stmt,
      Exits generator (exitsIn generator body) blockExits (lowerBlock names body)
  | [] => .pure (.refl _)
  | s :: rest => by
    rw [lowerBlock, Python.exitsIn_cons]
    refine .bind (exits_lowerStmt generator s) fun lowered hlowered => ?_
    refine .map (exits_lowerBlock generator rest) fun others hothers => ?_
    simpa using hlowered.append hothers

theorem exits_lowerOrelse (generator : Bool) :
    ∀ body : Option (List Python.Stmt), Exits generator (body.toList.flatMap (exitsIn generator))
      (fun block => exitsOf (ownOptional block)) (optionally (lowerOrelse names body))
  | none => by
    rw [lowerOrelse]
    exact .pure (.refl _)
  | some body => by
    rw [lowerOrelse, Option.toList_some, List.flatMap_singleton]
    exact .map (exits_lowerBlock generator body) fun block hblock => hblock

theorem exits_lowerBranches (generator : Bool) :
    ∀ branches : List Python.Branch,
      Exits generator
      ((branches.map Python.Branch.body).flatMap (exitsIn generator))
      (fun lowered => exitsOf (ownBranches lowered)) (lowerBranches names branches)
  | [] => .pure (.refl _)
  | ⟨test, body⟩ :: rest => by
    rw [lowerBranches]
    refine .behind (keepsPlace_lowerExpr names test).keepsMark fun test => ?_
    refine .bind (exits_lowerBlock generator body) fun block hblock => ?_
    refine .map (exits_lowerBranches generator rest) fun others hothers => ?_
    simpa using hblock.append hothers

theorem exits_lowerHandlers (generator : Bool) : ∀ handlers : List Python.Handler, Exits generator
      ((handlers.map Python.Handler.body).flatMap (exitsIn generator))
      (fun lowered => exitsOf (ownCatches lowered)) (lowerHandlers names handlers)
  | [] => .pure (.refl _)
  | ⟨types, name, body, span⟩ :: rest => by
    rw [lowerHandlers]
    refine .behind (fun _ => rfl) fun _ => ?_
    refine .behind (keepsPlace_lowerCaught names types name).keepsMark fun caught => ?_
    refine .bind (exits_lowerBlock generator body) fun block hblock => ?_
    refine .map (exits_lowerHandlers generator rest) fun others hothers => ?_
    simpa using hblock.append hothers

theorem exits_lowerCases (generator tupleSubject : Bool) :
    ∀ cases : List Python.MatchCase, Exits generator
      ((cases.map Python.MatchCase.body).flatMap (exitsIn generator))
      (fun lowered => exitsOf (ownSections lowered)) (lowerCases names tupleSubject cases)
  | [] => .pure (.refl _)
  | ⟨pattern, guard, body, span⟩ :: rest => by
    rw [lowerCases]
    refine .behind (fun _ => rfl) fun _ => ?_
    refine .behind (keepsPlace_lowerLabel names tupleSubject pattern guard).keepsMark
      fun label => ?_
    refine .bind (exits_lowerBlock generator body) fun block hblock => ?_
    refine .map (exits_lowerCases generator tupleSubject rest) fun others hothers => ?_
    simpa [inside_sectionBody] using hblock.append hothers

end

end PythonToCSharp.Lowering
