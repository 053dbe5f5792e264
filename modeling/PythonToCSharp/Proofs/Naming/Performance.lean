import PythonToCSharp.Lowering.Module
import PythonToCSharp.Proofs.Lowering.Balance
import PythonToCSharp.Proofs.Naming.Steps

/-!
Lowering a statement, whatever it is and wherever it stands, has exactly the effects that are listed
for it, and every variable that it declares in place was handed out by the frame of its body.

The rules for compound statements are taken one by one, from what is known of their blocks. A
definition opens a frame of its own, and only what it records in the module remains of its body.
-/

namespace PythonToCSharp.Lowering

open CSharp (localsAll localsCatches localsBranches localsOptional localsSections)
open Python (effectsBlock effectsOptional effectsBranches effectsHandlers effectsCases)
open Python.Expr (effectsList effectsOption)
open Scope (Effect Frame Stack Surroundings)

variable {effects bodyEffects elseEffects : List Effect} {around : Surroundings}
  {Good : String → Prop}
variable {names : LibraryNames} {body orelse : Lower Block}

/-! ## Compound statements -/

theorem goodLocals_guarded {test : CSharp.Expr} {block : Block} (h : GoodLocals Good block) :
    GoodLocals Good [guarded test block] := by
  simpa [GoodLocals, guarded, localsAll, CSharp.Stmt.locals, localsBranches, localsOptional] using h

theorem goodLocals_flag {mark : String} {value : Bool} (h : Good mark) :
    GoodLocals Good [.flag mark value] := by
  simpa [GoodLocals, localsAll, CSharp.Stmt.locals] using h

theorem acts_lowerWhile {test : Python.Expr}
    (hb : Acts around bodyEffects Good (GoodLocals Good) body) :
    Acts around (test.effects ++ bodyEffects) Good (GoodLocals Good)
      (lowerWhile names test body none) := by
  refine .lifted (performs_lowerExpr names test) fun test =>
    .map (hb.breakable _) fun block hblock => ?_
  simpa [GoodLocals, localsAll, CSharp.Stmt.locals] using hblock

theorem acts_lowerWhileElse {test : Python.Expr}
    (hb : Acts around bodyEffects Good (GoodLocals Good) body)
    (he : Acts around elseEffects Good (GoodLocals Good) orelse) :
    Acts around (.here (.fresh "noBreak") :: (test.effects ++ (bodyEffects ++ elseEffects))) Good
      (GoodLocals Good) (lowerWhile names test body (some orelse)) := by
  refine .cons (.fresh "noBreak") fun mark hmark =>
    .lifted (performs_lowerExpr names test) fun test => ?_
  refine .bind (hb.breakable _) fun block hblock => .map he fun otherwise hotherwise => ?_
  have hloop : GoodLocals Good [.whileLoop test block] := by
    simpa [GoodLocals, localsAll, CSharp.Stmt.locals] using hblock
  exact (goodLocals_flag hmark).append (hloop.append (goodLocals_guarded hotherwise))

theorem acts_lowerForEach {isAsync : Bool} {target iter : Python.Expr} {start : Block}
    (hstart : GoodLocals Good start) (hb : Acts around bodyEffects Good (GoodLocals Good) body) :
    Acts around (Python.forEachEffects target iter bodyEffects) Good
      (fun loop => GoodLocals Good [loop]) (lowerForEach names isAsync target iter start body) := by
  refine .lifted (performs_recordTarget target) fun _ =>
    .lifted (performs_lowerExpr names iter) fun iter => ?_
  refine .cons (.fresh "_it") fun item hitem =>
    .lifted (performs_lowerTarget names target) fun target => ?_
  refine .map (hb.breakable _) fun block hblock => ?_
  have hinner : GoodLocals Good (start ++ .assign target (.name item) :: block) :=
    hstart.append hblock
  intro name hname
  simp only [localsAll, CSharp.Stmt.locals, List.append_nil, List.mem_cons] at hname
  rcases hname with rfl | hname
  · exact hitem
  · exact hinner name hname

theorem acts_lowerFor {isAsync : Bool} {target iter : Python.Expr}
    (hb : Acts around bodyEffects Good (GoodLocals Good) body) :
    Acts around (Python.forEachEffects target iter bodyEffects) Good (GoodLocals Good)
      (lowerFor names isAsync target iter body none) :=
  .map (acts_lowerForEach (goodLocals_of_nil rfl) hb) fun _ hloop => hloop

theorem acts_lowerForElse {isAsync : Bool} {target iter : Python.Expr}
    (hb : Acts around bodyEffects Good (GoodLocals Good) body)
    (he : Acts around elseEffects Good (GoodLocals Good) orelse) :
    Acts around (.here (.fresh "loopExecuted") ::
      (Python.forEachEffects target iter bodyEffects ++ elseEffects)) Good
      (GoodLocals Good) (lowerFor names isAsync target iter body (some orelse)) := by
  refine .cons (.fresh "loopExecuted") fun mark hmark => ?_
  refine .bind (acts_lowerForEach (goodLocals_of_nil rfl) hb) fun loop hloop =>
    .map he fun otherwise hotherwise => ?_
  exact (goodLocals_flag hmark).append (hloop.append (goodLocals_guarded hotherwise))

theorem acts_lowerTry {handlers : Lower (List CSharp.Catch)}
    {otherwise finalbody : Option (Lower Block)}
    {handlerEffects finalEffects : List Effect}
    (hb : Acts around bodyEffects Good (GoodLocals Good) body)
    (hh : Acts around handlerEffects Good
      (fun catches => ∀ name ∈ localsCatches catches, Good name) handlers)
    (hf : Acts around finalEffects Good (fun block => ∀ name ∈ localsOptional block, Good name)
      (optionally finalbody))
    (he : Acts around elseEffects Good (fun block => ∀ name ∈ localsOptional block, Good name)
      (optionally otherwise)) :
    Acts around (.here .enterTry ::
      (bodyEffects ++ (handlerEffects ++ (finalEffects ++ (elseEffects ++
      [.here .exitTry]))))) Good (GoodLocals Good)
      (lowerTry body handlers otherwise finalbody) := by
  refine .cons (.lift performs_enterTry) fun flag _ => .bind hb fun block hblock =>
    .bind hh fun catches hcatches => ?_
  refine .bind hf fun cleanup hcleanup => .bind he fun last hlast => ?_
  have hexit : Performs [.here .exitTry] (modifyFrame (·.exitTry)) := performs_modifyFrame .exitTry
  refine .cons (.lift hexit) fun _ _ => .pure ?_
  have hbody : GoodLocals Good (block ++ [setMark flag true]) :=
    hblock.append (goodLocals_of_nil rfl)
  have htry : GoodLocals Good [.tryCatch (block ++ [setMark flag true]) catches cleanup] := by
    intro name hname
    simp only [localsAll, CSharp.Stmt.locals, List.append_nil, List.mem_append] at hname
    rcases hname with hname | hname | hname
    · exact hbody name hname
    · exact hcatches name hname
    · exact hcleanup name hname
  have helse : GoodLocals Good (last.map (guarded (.name flag))).toList := by
    cases last with
    | none => exact goodLocals_of_nil rfl
    | some block => exact goodLocals_guarded hlast
  have hclear : GoodLocals Good [setMark flag false] := goodLocals_of_nil rfl
  exact hclear.append (htry.append helse)

variable (names)

theorem performs_lowerCaught (types : List Python.Expr) (name : Option String) :
    Performs (Python.caughtEffects types name) (lowerCaught names types name) := by
  unfold lowerCaught
  match types, name with
  | [], none => exact .pure _
  | [], some _ => exact .pure _
  | [type], none =>
    exact (Performs.map (performs_lowerExpr names type) _).of_eq (List.append_nil _).symm
  | [type], some _ =>
    exact (Performs.map (performs_lowerExpr names type) _).of_eq (List.append_nil _).symm
  | first :: second :: rest, some _ =>
      exact .map (performs_lowerList names (first :: second :: rest)) _
  | first :: second :: rest, none =>
    exact .cons (performs_fresh "ex") fun _ =>
      .map (performs_lowerList names (first :: second :: rest)) _

theorem performs_lowerResource (item : Python.WithItem) :
    Performs item.effects (lowerResource names item) := by
  obtain ⟨context, target⟩ := item
  cases target with
  | none => exact .silent (.pure _) fun _ => .map (performs_lowerExpr names context) _
  | some target =>
    refine .bind (performs_recordTarget target) fun _ => ?_
    exact .bind (performs_lowerExpr names context) fun _ =>
      .map (performs_lowerTarget names target) _

theorem performs_lowerResources : ∀ items : List Python.WithItem,
    Performs (items.flatMap Python.WithItem.effects) (lowerResources names items)
  | [] => .pure _
  | item :: rest => .bind (performs_lowerResource names item) fun _ =>
      .map (performs_lowerResources rest) _

theorem performs_lowerLabel (tupleSubject : Bool) (pattern : Python.Pattern)
    (guard : Option Python.Expr) :
    Performs (effectsOption guard ++ effectsList pattern.literals)
      (lowerLabel names tupleSubject pattern guard) := by
  refine .bind (performs_lowerOption names guard) fun guard => ?_
  split
  · exact .pure _
  · exact .pure _
  · exact .map (performs_lowerCasePattern names tupleSubject _) _

theorem acts_lowerMatch {subject : Python.Expr} {sections : Lower (List CSharp.Section)}
    (h : Acts around effects Good
      (fun lowered => ∀ name ∈ localsSections lowered, Good name) sections) :
    Acts around (subject.effects ++ effects) Good (GoodLocals Good)
      (lowerMatch names subject sections) := by
  refine .lifted (performs_lowerExpr names subject) fun subject =>
    .map (h.breakable _) fun lowered hlowered => ?_
  simpa [GoodLocals, localsAll, CSharp.Stmt.locals] using hlowered

/-! ## Heads of definitions -/

theorem performs_lowerDecorators (decorators : List Python.Expr) :
    Performs (effectsList decorators) (lowerDecorators names decorators) := by
  induction decorators with
  | nil => exact .pure _
  | cons decorator rest ih =>
    exact .bind (performs_lowerExpr names decorator) fun _ =>
      .silent (performs_warn _ _) fun _ => .map ih _

theorem performs_lowerParam (param : Python.Param) :
    Performs (effectsList param.loweredDefault) (lowerParam names param) := by
  obtain ⟨name, kind, hint, default⟩ := param
  cases kind with
  | normal =>
    refine (Performs.map (performs_lowerOption names default) _).of_eq ?_
    cases default with
    | none => rfl
    | some value => exact (List.append_nil _).symm
  | _ => exact .pure _

theorem performs_lowerParams : ∀ params : List Python.Param,
    Performs (effectsList (params.flatMap Python.Param.loweredDefault)) (lowerParams names params)
  | [] => .pure _
  | param :: rest =>
    (Performs.bind (performs_lowerParam names param) fun _ =>
      .map (performs_lowerParams rest) _).of_eq (Python.Expr.effectsList_append _ _).symm

theorem performs_lowerBases (className : String) (bases : List Python.Arg) :
    Performs (effectsList (bases.flatMap Python.Arg.base)) (lowerBases names className bases) := by
  induction bases with
  | nil => exact .pure _
  | cons arg rest hr =>
    cases arg with
    | positional base =>
      have hb : Performs (base.effects ++ effectsList (rest.flatMap Python.Arg.base)) (do
          let base ← lowerExpr names base
          return base :: (← lowerBases names className rest)) :=
        .bind (performs_lowerExpr names base) fun _ => .map hr _
      cases base with
      | name id =>
        by_cases hobject : (id == "object") = true
        · simpa [lowerBases, Python.Arg.base, hobject] using hr
        · have hkept : (Python.Arg.positional (.name id)).base = [.name id] := by
            simp [Python.Arg.base, hobject]
          rw [List.flatMap_cons, hkept]
          simpa [lowerBases, hobject, lowerExpr, effectsList] using hb
      | _ => exact hb
    | keyword name value => exact .silent (performs_warn _ _) fun _ => hr
    | star value => exact .silent (performs_warn _ _) fun _ => hr
    | doubleStar value => exact .silent (performs_warn _ _) fun _ => hr

/-! ## Scopes of their own -/

/-- The names of parameters, each once. -/
def paramNames (params : List Python.Param) : List String :=
  params.foldl (fun names param => Scope.insertNew names param.name) []

/-- The frame of a function before its body is lowered, its receiver aside. -/
def functionStart (definition : Python.FunctionDef) : Frame :=
  { kind := .function
    excluded := paramNames definition.params
    reserved := Python.boundIn definition.body
    isGenerator := Python.yieldsIn definition.body }

/-- The frame of a class before its body is lowered. -/
def classStart (definition : Python.ClassDef) : Frame :=
  { kind := .class_, reserved := Python.boundIn definition.body }

theorem mem_paramNames {params : List Python.Param} {name : String} :
    name ∈ paramNames params ↔ ∃ param ∈ params, param.name = name := by
  have hfold (known : List String) :
      name ∈ params.foldl (fun names param => Scope.insertNew names param.name) known ↔
        name ∈ known ∨ ∃ param ∈ params, param.name = name := by
    induction params generalizing known with
    | nil => simp
    | cons param rest ih => simp [ih, Frame.mem_insertNew, eq_comm, or_assoc]
  simpa [paramNames] using hfold []

theorem excludeAll_eq (params : List Python.Param) (known : List String) :
    params.foldl (fun frame param =>
      frame.exclude param.name) ({ kind := .function, excluded := known } : Frame) =
      { kind := .function
        excluded := params.foldl (fun names param => Scope.insertNew names param.name) known } := by
  induction params generalizing known with
  | nil => rfl
  | cons param rest ih => exact ih (Scope.insertNew known param.name)

theorem ledger_openFunction (definition : Python.FunctionDef) (receiver : Option String) :
    (openFunction definition receiver { kind := .function }).ledger = functionStart definition := by
  have hparams := excludeAll_eq definition.params []
  unfold functionStart openFunction
  simp only [hparams]
  cases receiver <;> cases Python.yieldsIn definition.body <;> rfl

/-- Of a body in a scope of its own, only what it records in the module remains. -/
theorem ledger_closed {root opened : Frame} {nested : List Frame} {last : State}
    (h : last.scopes.ledger = Stack.performAll ⟨root, opened :: nested⟩ effects) :
    last.scopes.current.ledger = opened.run (effects.filterMap Effect.here?) ∧
      last.closed.scopes.ledger = Stack.performAll ⟨root, nested⟩ (Effect.passedOn effects) ∧
      last.scopes.nested.length = nested.length + 1 := by
  rw [(Stack.performAll_nested _ _ _ effects).1] at h
  have hroot := congrArg Stack.root h
  obtain ⟨top, rest, hn, htop, hrest⟩ := List.map_eq_cons_iff.1 (congrArg Stack.nested h)
  obtain ⟨hcurrent, hclosed⟩ := State.closed_eq hn
  refine ⟨hcurrent ▸ htop, ?_, ?_⟩
  · rw [hclosed]
    show Stack.mk last.scopes.root.ledger (rest.map Frame.ledger) = _
    rw [hrest]
    exact (congrArg (Stack.mk · _) hroot).trans (Stack.performAll_inModule _ _ _).symm
  · rw [hn, List.length_cons, ← hrest, List.length_map]

/-! ## Definitions -/

/-- The function declares the variables and flags of the frame, and its other variables are good. -/
structure FunctionDeclares (function : CSharp.Function) (type : CSharp.TypeRef) (frame : Frame)
    (Good : String → Prop) : Prop where
  valueType : function.valueType = type
  vars : function.vars = frame.declared
  flags : function.flags = frame.flags
  locals : GoodLocals Good function.body

theorem lowerFunction_performs {definition : Python.FunctionDef}
    (hb : Acts ⟨false, Python.yieldsIn definition.body⟩ bodyEffects Good (GoodLocals Good) body)
    (s : State)
    (hgood : ∀ name ∈ (functionStart definition).handedOut (bodyEffects.filterMap Effect.here?),
      Good name) :
    ∃ function after, lowerFunction names definition body s = .ok ([.function function], after) ∧
      after.scopes.ledger = s.scopes.ledger.performAll
        (effectsList (definition.head s.scopes.current.surroundings.inClass) ++
          Effect.passedOn bodyEffects) ∧
      FunctionDeclares function (valueType names)
        ((functionStart definition).run (bodyEffects.filterMap Effect.here?)) Good := by
  let inClass := s.scopes.current.kind == .class_
  let split := splitReceiver (roleOf inClass definition.decorators) definition.params
  let decorators := lowerDecorators names (otherDecorators inClass definition.decorators) s
  let params := lowerParams names split.2 decorators.2
  have hinner : (insideFunction names definition s).scopes.ledger =
      ⟨params.2.scopes.root.ledger,
        functionStart definition :: params.2.scopes.nested.map Frame.ledger⟩ := by
    rw [← ledger_openFunction definition split.1]
    rfl
  have haround : (insideFunction names definition s).scopes.current.surroundings =
      ⟨false, Python.yieldsIn definition.body⟩ := by
    have hframe := congrArg Frame.surroundings (ledger_openFunction definition split.1)
    exact hframe
  obtain ⟨lines, last, hrun, hlast, hlines⟩ := hb (insideFunction names definition s) haround (by
    rw [hinner, (Stack.performAll_nested _ _ _ bodyEffects).2]
    exact hgood)
  rw [hinner] at hlast
  obtain ⟨htop, hclosed, hlength⟩ := ledger_closed hlast
  rw [List.length_map] at hlength
  refine ⟨loweredFunction names definition s lines last, last.closed,
    lowerFunction_of_run names definition hrun hlength, ?_, ?_⟩
  · have hdecorators := performs_lowerDecorators names
      (otherDecorators inClass definition.decorators) s
    have hparams : params.2.scopes.ledger = _ := performs_lowerParams names split.2 decorators.2
    rw [hclosed, ← Stack.ledger, hparams, hdecorators, Stack.performAll_append]
    unfold Python.FunctionDef.head
    rw [Python.Expr.effectsList_append, Stack.performAll_append]
    rfl
  · rw [← htop]
    exact ⟨rfl, rfl, rfl, hlines⟩

theorem acts_lowerFunction {definition : Python.FunctionDef}
    (hb : Acts ⟨false, Python.yieldsIn definition.body⟩ bodyEffects (fun _ => True)
      (GoodLocals fun _ => True) body) :
    Acts around (effectsList (definition.head around.inClass) ++ Effect.passedOn bodyEffects) Good
      (GoodLocals Good) (lowerFunction names definition body) := by
  intro s hs _
  obtain ⟨function, after, hrun, hafter, -⟩ := lowerFunction_performs names hb s fun _ _ => trivial
  rw [hs] at hafter
  exact ⟨_, after, hrun, hafter, goodLocals_of_nil rfl⟩

/-- The class declares the variables and flags of the frame, and the variables of its static
constructor are good. -/
structure ClassDeclares (type : CSharp.Class) (frame : Frame) (Good : String → Prop) : Prop where
  statics : type.statics = frame.declared
  flags : type.flags = frame.flags
  locals : GoodLocals Good type.initializer

theorem ledger_classHead (definition : Python.ClassDef) (s : State) :
    (classHead names definition s).2.2.scopes.ledger =
      s.scopes.ledger.performAll (effectsList definition.head) := by
  unfold classHead Python.ClassDef.head
  dsimp only
  rw [performs_lowerBases, performs_lowerDecorators, Python.Expr.effectsList_append,
    Stack.performAll_append]
  -- a class in a function comes with a note, which changes nothing of the scopes
  split <;> rfl

/-- The class stands in place or behind the top level. -/
theorem lowerClass_performs {definition : Python.ClassDef} {body : Lower ClassBody}
    (hb : Acts ⟨true, false⟩ bodyEffects Good
      (fun lowered => GoodLocals Good lowered.initializer) body) (s : State)
    (hgood : ∀ name ∈ (classStart definition).handedOut (bodyEffects.filterMap Effect.here?),
      Good name) :
    ∃ type lines after, lowerClass names definition body s = .ok (lines, after) ∧
      after.scopes.ledger = s.scopes.ledger.performAll
        (effectsList definition.head ++ Effect.passedOn bodyEffects) ∧
      ClassDeclares type ((classStart definition).run (bodyEffects.filterMap Effect.here?)) Good ∧
      (lines = [.type type] ∨ lines = [] ∧ type ∈ after.types) := by
  let before := (classHead names definition s).2.2
  have hinner : (insideClass names definition s).scopes.ledger =
      ⟨before.scopes.root.ledger, classStart definition :: before.scopes.nested.map Frame.ledger⟩ :=
    rfl
  obtain ⟨lowered, last, hrun, hlast, hlocals⟩ := hb (insideClass names definition s) rfl (by
    rw [hinner, (Stack.performAll_nested _ _ _ bodyEffects).2]
    exact hgood)
  rw [hinner] at hlast
  obtain ⟨htop, hclosed, hlength⟩ := ledger_closed hlast
  rw [List.length_map] at hlength
  let type := loweredClass names definition s lowered last
  let placed := placeClass (s.scopes.current.kind == .class_) type
    { last.closed with classNames := last.classNames.tail }
  refine ⟨type, placed.1, placed.2, lowerClass_of_run names definition hrun hlength, ?_, ?_,
    placeClass_mem _ _ _⟩
  · have hscopes : placed.2.scopes = last.closed.scopes := scopes_placeClass _ _ _
    rw [hscopes, hclosed, ← Stack.ledger, ledger_classHead, Stack.performAll_append]
  · rw [← htop]
    exact ⟨rfl, rfl, hlocals⟩

theorem acts_lowerClass {definition : Python.ClassDef} {body : Lower ClassBody}
    (hb : Acts ⟨true, false⟩ bodyEffects (fun _ => True)
      (fun lowered => GoodLocals (fun _ => True) lowered.initializer) body) :
    Acts around (effectsList definition.head ++ Effect.passedOn bodyEffects) Good (GoodLocals Good)
      (lowerClass names definition body) := by
  intro s _ _
  obtain ⟨type, lines, after, hrun, hafter, -, hlines⟩ :=
    lowerClass_performs names hb s fun _ _ => trivial
  refine ⟨lines, after, hrun, hafter, goodLocals_of_nil ?_⟩
  rcases hlines with rfl | ⟨rfl, -⟩ <;> rfl

/-! ## Whole trees -/

/-- What is left out of a class has no effects. -/
theorem effects_of_nowhere {kind : Python.StmtKind} (h : memberPlace kind = .nowhere) :
    kind.effects around = [] := by
  unfold memberPlace at h
  split at h
  · rfl
  · rfl
  all_goals cases h

theorem goodLocals_add {lowered : Block} {others : ClassBody} (place : MemberPlace)
    (hl : GoodLocals Good lowered) (ho : GoodLocals Good others.initializer) :
    GoodLocals Good (others.add place lowered).initializer := by
  cases place with
  | nowhere => exact ho
  | members => exact ho
  | initializer => exact hl.append ho

mutual

theorem acts_lowerStmt (around : Surroundings) (Good : String → Prop) :
    ∀ s : Python.Stmt, Acts around (s.effects around) Good (GoodLocals Good) (lowerStmt names s)
  | ⟨kind, span⟩ => by
    rw [lowerStmt]
    exact (acts_lowerKind around Good kind).located span

theorem acts_lowerKind (around : Surroundings) (Good : String → Prop) :
    ∀ kind : Python.StmtKind,
      Acts around (kind.effects around) Good (GoodLocals Good) (lowerKind names kind)
  | .expr value => acts_lowerExprStmt names value
  | .assign targets value =>
    .plain (performs_lowerAssign names targets value)
      (givesPlain_lowerAssign names targets value).noLocals
  | .annAssign target hint value => acts_lowerAnnAssign names target hint value
  | .augAssign target op value => acts_lowerAugAssign names target op value
  | .ifChain branches orelse => by
    rw [lowerKind]
    refine .bind (acts_lowerBranches around Good branches) fun lowered hlowered => ?_
    refine .map (acts_lowerOrelse around Good orelse) fun otherwise hotherwise => ?_
    intro name hname
    simp only [localsAll, CSharp.Stmt.locals, List.append_nil, List.mem_append] at hname
    rcases hname with hname | hname
    · exact hlowered name hname
    · exact hotherwise name hname
  | .whileLoop test body none => by
    rw [lowerKind, lowerOrelse]
    exact acts_lowerWhile (acts_lowerBlock around Good body)
  | .whileLoop test body (some orelse) => by
    rw [lowerKind, lowerOrelse]
    exact acts_lowerWhileElse (acts_lowerBlock around Good body)
      (acts_lowerBlock around Good orelse)
  | .forLoop target iter body none isAsync => by
    rw [lowerKind, lowerOrelse]
    exact acts_lowerFor (acts_lowerBlock around Good body)
  | .forLoop target iter body (some orelse) isAsync => by
    rw [lowerKind, lowerOrelse]
    exact acts_lowerForElse (acts_lowerBlock around Good body) (acts_lowerBlock around Good orelse)
  | .tryBlock body handlers orelse finalbody => by
    rw [lowerKind]
    exact acts_lowerTry (acts_lowerBlock around Good body) (acts_lowerHandlers around Good handlers)
      (acts_lowerOrelse around Good finalbody) (acts_lowerOrelse around Good orelse)
  | .withBlock items body isAsync => by
    rw [lowerKind]
    refine .lifted (performs_lowerResources names items) fun resources => ?_
    refine .map (acts_lowerBlock around Good body) fun block hblock => ?_
    simpa [GoodLocals, localsAll, CSharp.Stmt.locals] using hblock
  | .functionDef ⟨name, params, returns, body, decorators, isAsync⟩ => by
    rw [lowerKind]
    exact acts_lowerFunction names
      (acts_lowerBlock ⟨false, Python.yieldsIn body⟩ (fun _ => True) body)
  | .classDef ⟨name, bases, body, decorators⟩ => by
    rw [lowerKind]
    exact acts_lowerClass names (acts_lowerMembers ⟨true, false⟩ (fun _ => True) body)
  | .matchBlock subject cases => by
    rw [lowerKind]
    exact acts_lowerMatch names (acts_lowerCases around Good (isTuple subject) cases)
  | .returnStmt value => acts_lowerReturn names value
  | .raiseStmt exc cause => acts_lowerRaise names exc cause
  | .deleteStmt targets => .plain (performs_lowerDeletes names targets)
      (givesPlain_lowerDeletes names targets).noLocals
  | .assertStmt test msg => acts_lowerAssert names test msg
  | .importStmt entries => acts_lowerImport entries
  | .importFrom path entries wildcard => acts_lowerImportFrom path entries wildcard
  | .globalStmt ids => acts_lowerGlobal ids
  | .nonlocalStmt ids => acts_lowerNonlocal ids
  | .passStmt => .pure (goodLocals_of_nil rfl)
  | .breakStmt => acts_lowerBreak
  | .continueStmt => .pure (goodLocals_of_nil rfl)
  | .comment _ => .pure (goodLocals_of_nil rfl)
  | .unsupported kind text => acts_lowerUnsupported kind text

theorem acts_lowerBlock (around : Surroundings) (Good : String → Prop) :
    ∀ body : List Python.Stmt, Acts around (effectsBlock around body) Good (GoodLocals Good)
      (lowerBlock names body)
  | [] => .pure (goodLocals_of_nil rfl)
  | s :: rest => by
    rw [lowerBlock]
    refine .bind (acts_lowerStmt around Good s) fun first hfirst => ?_
    exact .map (acts_lowerBlock around Good rest) fun others hothers => hfirst.append hothers

theorem acts_lowerOrelse (around : Surroundings) (Good : String → Prop) :
    ∀ body : Option (List Python.Stmt), Acts around (effectsOptional around body) Good
      (fun block => ∀ name ∈ localsOptional block, Good name) (optionally (lowerOrelse names body))
  | none => by
    rw [lowerOrelse]
    exact .pure (by simp [localsOptional])
  | some body => by
    rw [lowerOrelse]
    exact .map (acts_lowerBlock around Good body) fun block hblock => hblock

theorem acts_lowerBranches (around : Surroundings) (Good : String → Prop) :
    ∀ branches : List Python.Branch, Acts around (effectsBranches around branches) Good
      (fun lowered => ∀ name ∈ localsBranches lowered, Good name) (lowerBranches names branches)
  | [] => .pure (by simp [localsBranches])
  | ⟨test, body⟩ :: rest => by
    rw [lowerBranches]
    refine .lifted (performs_lowerExpr names test) fun test => ?_
    refine .bind (acts_lowerBlock around Good body) fun block hblock => ?_
    refine .map (acts_lowerBranches around Good rest) fun others hothers => ?_
    intro name hname
    rcases List.mem_append.1 hname with h | h
    · exact hblock name h
    · exact hothers name h

theorem acts_lowerHandlers (around : Surroundings) (Good : String → Prop) :
    ∀ handlers : List Python.Handler, Acts around (effectsHandlers around handlers) Good
      (fun catches => ∀ name ∈ localsCatches catches, Good name) (lowerHandlers names handlers)
  | [] => .pure (by simp [localsCatches])
  | ⟨types, name, body, span⟩ :: rest => by
    rw [lowerHandlers]
    refine .silent (.moveTo span) fun _ _ =>
      .lifted (performs_lowerCaught names types name) fun caught => ?_
    refine .bind (acts_lowerBlock around Good body) fun block hblock => ?_
    refine .map (acts_lowerHandlers around Good rest) fun others hothers => ?_
    intro name hname
    rcases List.mem_append.1 hname with h | h
    · exact hblock name h
    · exact hothers name h

theorem acts_lowerCases (around : Surroundings) (Good : String → Prop)
    (tupleSubject : Bool) :
    ∀ cases : List Python.MatchCase, Acts around (effectsCases around cases) Good
      (fun sections => ∀ name ∈ localsSections sections, Good name)
      (lowerCases names tupleSubject cases)
  | [] => .pure (by simp [localsSections])
  | ⟨pattern, guard, body, span⟩ :: rest => by
    rw [lowerCases]
    refine .silent (.moveTo span) fun _ _ => ?_
    refine Acts.of_eq (.lifted (performs_lowerLabel names tupleSubject pattern guard) fun label =>
      ?_) (List.append_assoc _ _ _)
    refine .bind (acts_lowerBlock around Good body) fun block hblock => ?_
    refine .map (acts_lowerCases around Good tupleSubject rest) fun others hothers => ?_
    have hsection : GoodLocals Good (sectionBody body block) := by
      unfold sectionBody
      split
      · exact hblock
      · exact hblock.append (goodLocals_of_nil rfl)
    intro name hname
    rcases List.mem_append.1 hname with h | h
    · exact hsection name h
    · exact hothers name h

theorem acts_lowerMembers (around : Surroundings) (Good : String → Prop) :
    ∀ body : List Python.Stmt, Acts around (effectsBlock around body) Good
      (fun lowered => GoodLocals Good lowered.initializer) (lowerMembers names body)
  | [] => .pure (goodLocals_of_nil rfl)
  | ⟨kind, span⟩ :: rest => by
    have hs := acts_lowerStmt around Good ⟨kind, span⟩
    have hr := acts_lowerMembers around Good rest
    rw [lowerMembers]
    split
    · -- what does nothing is left out
      rename_i hplace
      have hnone : kind.effects around = [] := effects_of_nowhere hplace
      exact hr.of_eq (by simp [effectsBlock, Python.Stmt.effects, hnone])
    · refine .bind hs fun lowered hlowered => .map hr fun others hothers => ?_
      exact goodLocals_add _ hlowered hothers

end

end PythonToCSharp.Lowering
