import PythonToCSharp.Lowering.Module
import PythonToCSharp.Proofs.Layout.Buffers
import PythonToCSharp.Proofs.Lowering.SimpleSteps

/-!
Lowering never fails, and every statement leaves the state as balanced as it found it.

Each rule is taken once: the compound ones succeed when the steps for their blocks do, and a
definition closes the scope it opens. From these, by induction over the tree, every statement
succeeds from every state, and so does every module.
-/

namespace PythonToCSharp.Lowering

open Scope (Frame Stack)

/-! ## Compound statements -/

theorem succeeds_lowerWhile {names : LibraryNames} {test : Python.Expr} {body : Lower Block}
    {orelse : Option (Lower Block)} (hb : Succeeds body) (he : ∀ x ∈ orelse, Succeeds x) :
    Succeeds (lowerWhile names test body orelse) := by
  have ht : Succeeds (liftM (lowerExpr names test) : Lower CSharp.Expr) :=
    .lift (keepsPlace_lowerExpr names test)
  cases orelse with
  | none => exact .bind ht fun _ => .map (.breakable hb) _
  | some orelse =>
    refine .bind (.lift (keepsPlace_fresh _)) fun mark => .bind ht fun _ => ?_
    exact .bind (.breakable hb) fun _ => .map (he orelse rfl) _

theorem succeeds_lowerForEach {names : LibraryNames} {isAsync : Bool} {target iter : Python.Expr}
    {first : Block} {body : Lower Block} (hb : Succeeds body) :
    Succeeds (lowerForEach names isAsync target iter first body) := by
  refine .bind (.lift (keepsPlace_recordTarget target)) fun _ => ?_
  refine .bind (.lift (keepsPlace_lowerExpr names iter)) fun _ => ?_
  refine .bind (.lift (keepsPlace_fresh _)) fun _ => ?_
  exact .bind (.lift (keepsPlace_lowerTarget names target)) fun _ => .map (.breakable hb) _

theorem succeeds_lowerFor {names : LibraryNames} {isAsync : Bool} {target iter : Python.Expr}
    {body : Lower Block} {orelse : Option (Lower Block)} (hb : Succeeds body)
    (he : ∀ x ∈ orelse, Succeeds x) :
    Succeeds (lowerFor names isAsync target iter body orelse) := by
  cases orelse with
  | none => exact .map (succeeds_lowerForEach hb) _
  | some orelse =>
    refine .bind (.lift (keepsPlace_fresh _)) fun mark => ?_
    exact .bind (succeeds_lowerForEach hb) fun _ => .map (he orelse rfl) _

/-- The parts of a `try` run one level of `try` deeper, and the level is left at the end. -/
theorem succeeds_lowerTry {body : Lower Block} {handlers : Lower (List CSharp.Catch)}
    {orelse finalbody : Option (Lower Block)} (hb : Succeeds body) (hh : Succeeds handlers)
    (he : ∀ x ∈ orelse, Succeeds x) (hf : ∀ x ∈ finalbody, Succeeds x) :
    Succeeds (lowerTry body handlers orelse finalbody) := by
  intro s
  let entered : State :=
    { s with scopes := s.scopes.modifyCurrent fun _ => s.scopes.current.enterTry.2 }
  obtain ⟨body', s₁, hrun₁, hg₁⟩ := hb entered
  obtain ⟨catches, s₂, hrun₂, hg₂⟩ := hh s₁
  obtain ⟨cleanup, s₃, hrun₃, hg₃⟩ := Succeeds.optionally hf s₂
  obtain ⟨orelse', s₄, hrun₄, hg₄⟩ := Succeeds.optionally he s₃
  have hg : entered.Grows s₄ := ((hg₁.trans hg₂).trans hg₃).trans hg₄
  have hent : enterTry s = (s.scopes.current.enterTry.1, entered) := rfl
  have hrun : ∃ result, lowerTry body handlers orelse finalbody s =
      .ok (result, { s₄ with scopes := s₄.scopes.modifyCurrent (·.exitTry) }) := by
    rw [lowerTry, lift_bind_run, hent, bind_run hrun₁, bind_run hrun₂, bind_run hrun₃,
      bind_run hrun₄]
    exact ⟨_, rfl⟩
  obtain ⟨result, hrun⟩ := hrun
  refine ⟨result, _, hrun, hg.classNames, ?_⟩
  have hs : (s.scopes.modifyCurrent fun _ => s.scopes.current.enterTry.2).Grows s₄.scopes :=
    hg.scopes
  exact hs.bracket fun frame hframe => (s.scopes.current.grows_enterTry.trans hframe).exitTry

variable (names : LibraryNames)

theorem keepsPlace_lowerCaught (types : List Python.Expr) (name : Option String) :
    KeepsPlace (lowerCaught names types name) :=
  (composed_lowerCaught names types name).keepsPlace

theorem keepsPlace_lowerResource (item : Python.WithItem) :
    KeepsPlace (lowerResource names item) := by
  obtain ⟨context, target⟩ := item
  cases target with
  | none =>
      exact .bind (.pure _) fun _ => .bind (keepsPlace_lowerExpr names context) fun _ => .pure _
  | some target =>
    refine .bind (keepsPlace_recordTarget target) fun _ => ?_
    exact .bind (keepsPlace_lowerExpr names context) fun _ =>
      .map (keepsPlace_lowerTarget names target) _

theorem keepsPlace_lowerResources :
    ∀ items : List Python.WithItem, KeepsPlace (lowerResources names items)
  | [] => .pure _
  | item :: rest =>
    .bind (keepsPlace_lowerResource names item) fun _ => .map (keepsPlace_lowerResources rest) _

theorem keepsPlace_lowerLabel (tupleSubject : Bool) (pattern : Python.Pattern)
    (guard : Option Python.Expr) : KeepsPlace (lowerLabel names tupleSubject pattern guard) :=
  (composed_lowerLabel names tupleSubject pattern guard).keepsPlace

theorem succeeds_lowerMatch {names : LibraryNames} {subject : Python.Expr}
    {sections : Lower (List CSharp.Section)} (h : Succeeds sections) :
    Succeeds (lowerMatch names subject sections) :=
  .bind (.lift (keepsPlace_lowerExpr names subject)) fun _ => .map (.breakable h) _

/-! ## Definitions -/

theorem keepsPlace_lowerDecorators (decorators : List Python.Expr) :
    KeepsPlace (lowerDecorators names decorators) :=
  (composed_lowerDecorators names decorators).keepsPlace

theorem keepsPlace_lowerParams (params : List Python.Param) :
    KeepsPlace (lowerParams names params) :=
  (composed_lowerParams names params).keepsPlace

theorem keepsPlace_lowerBases (className : String) (bases : List Python.Arg) :
    KeepsPlace (lowerBases names className bases) :=
  (composed_lowerBases names className bases).keepsPlace

/-- The body of a function, under the frame that is set up for it. -/
theorem succeedsWithin_function {opening : Frame → Frame} {body : Lower Block}
    (hb : Succeeds body) : SucceedsWithin (do modifyFrame opening; body) := by
  intro s frame
  obtain ⟨block, after, hrun, hg⟩ :=
    hb { s with scopes := { s.scopes with nested := opening frame :: s.scopes.nested } }
  obtain ⟨top, rest, hn, -, hpop⟩ := hg.scopes.popFrame
  exact ⟨block, after, top, rest, hrun, hg.classNames, hn, hpop⟩

theorem succeeds_lowerFunction {names : LibraryNames} {definition : Python.FunctionDef}
    {body : Lower Block} (hb : Succeeds body) : Succeeds (lowerFunction names definition body) := by
  refine .bind (.lift keepsPlace_currentFrame) fun frame => ?_
  refine .bind (.lift (keepsPlace_lowerDecorators names _)) fun decorators => ?_
  refine .bind (.lift (keepsPlace_lowerParams names _)) fun params => ?_
  refine .bind .get fun s => ?_
  exact .bind (.inScope (by decide) (succeedsWithin_function hb)) fun _ => .pure _

/-- The frame of a function when its body is reached. -/
theorem shape_openFunction (definition : Python.FunctionDef) (receiver : Option String) :
    (openFunction definition receiver { kind := .function }).shape =
      (.function, receiver, Python.yieldsIn definition.body, [], 0) := by
  have hparams (params : List Python.Param) (frame : Frame) :
      (params.foldl (fun frame param => frame.exclude param.name) frame).shape = frame.shape := by
    induction params generalizing frame with
    | nil => rfl
    | cons param rest ih => exact ih _
  have hframe := hparams definition.params { kind := .function }
  unfold openFunction
  simp only [Frame.shape, Prod.mk.injEq] at hframe
  cases receiver <;> cases Python.yieldsIn definition.body <;>
    simp [Frame.shape, Frame.reserve, Frame.setGenerator, Frame.setReceiver, hframe]

/-- The state in which the body of a function is lowered: its decorators and its parameters are
done, and a frame is open for it. -/
def insideFunction (names : LibraryNames) (definition : Python.FunctionDef) (s : State) : State :=
  let inClass := s.scopes.current.kind == .class_
  let split := splitReceiver (roleOf inClass definition.decorators) definition.params
  let decorated := (lowerDecorators names (otherDecorators inClass definition.decorators) s).2
  let before := (lowerParams names split.2 decorated).2
  { before with scopes := { before.scopes with
    nested := openFunction definition split.1 { kind := .function } :: before.scopes.nested } }

/-- What a function becomes, the lines of its body and the state behind them given. -/
def loweredFunction (names : LibraryNames) (definition : Python.FunctionDef) (s : State)
    (lines : Block) (last : State) : CSharp.Function :=
  let inClass := s.scopes.current.kind == .class_
  let role := roleOf inClass definition.decorators
  let decorators := lowerDecorators names (otherDecorators inClass definition.decorators) s
  { decorators := decorators.1
    header := functionHeader names s.classNames.head? role definition
      (lowerParams names (splitReceiver role definition.params).2 decorators.2).1
    valueType := valueType names
    vars := last.scopes.current.declared
    flags := last.scopes.current.flags
    body := lines }

/-- The state with its innermost scope closed. -/
def State.closed (s : State) : State :=
  { s with scopes := { s.scopes with nested := s.scopes.nested.tail } }

/-- The innermost scope is the first one, and closing it leaves the others. -/
theorem State.closed_eq {s : State} {top : Frame} {rest : List Frame}
    (h : s.scopes.nested = top :: rest) :
    s.scopes.current = top ∧ s.closed = { s with scopes := { s.scopes with nested := rest } } := by
  simp [Stack.current, State.closed, h]

/-- Behind a function whose body leaves as many scopes open as it finds, the scope of the body is
closed again. -/
theorem lowerFunction_of_run (definition : Python.FunctionDef) {body : Lower Block} {s last : State}
    {lines : Block} (hrun : body (insideFunction names definition s) = .ok (lines, last))
    (hlength : last.scopes.nested.length =
      (insideFunction names definition s).scopes.nested.length) :
    lowerFunction names definition body s =
      .ok ([.function (loweredFunction names definition s lines last)], last.closed) := by
  let inClass := s.scopes.current.kind == .class_
  let role := roleOf inClass definition.decorators
  let receiver := (splitReceiver role definition.params).1
  let decorators := lowerDecorators names (otherDecorators inClass definition.decorators) s
  let params := lowerParams names (splitReceiver role definition.params).2 decorators.2
  let header := functionHeader names params.2.classNames.head? role definition params.1
  obtain ⟨top, rest, hn⟩ := List.exists_cons_of_length_eq_add_one hlength
  have hrest : rest.length = params.2.scopes.nested.length := by
    rw [hn] at hlength
    exact Nat.succ.inj hlength
  have hscope :
      inScope .function (do modifyFrame (openFunction definition receiver); body) params.2 =
      .ok ((lines, top), { last with scopes := { last.scopes with nested := rest } }) :=
    inScope_run (by decide) hrun hn hrest
  have hnames : params.2.classNames = s.classNames :=
    (keepsPlace_lowerParams names _ decorators.2).1.classNames.trans
      (keepsPlace_lowerDecorators names _ s).1.classNames
  obtain ⟨hcurrent, hclosed⟩ := State.closed_eq hn
  rw [loweredFunction, hcurrent, ← hnames, hclosed]
  exact bind_run (f := fun result => Pure.pure
    [CSharp.Stmt.function
      ⟨decorators.1, header, valueType names, result.2.declared, result.2.flags, result.1⟩])
    hscope

theorem lowerFunction_closed (definition : Python.FunctionDef) {body : Lower Block}
    (hb : Succeeds body) (s : State) : ∃ lines last,
      body (insideFunction names definition s) = .ok (lines, last) ∧
      lowerFunction names definition body s =
        .ok ([.function (loweredFunction names definition s lines last)], last.closed) := by
  obtain ⟨lines, last, hrun, hg⟩ := hb (insideFunction names definition s)
  exact ⟨lines, last, hrun,
    lowerFunction_of_run names definition hrun hg.scopes.nested.length_eq.symm⟩

/-- What a function becomes, part by part. -/
theorem lowerFunction_eq (definition : Python.FunctionDef) {body : Lower Block}
    (hb : Succeeds body) (s : State) : ∃ lines last after,
      body (insideFunction names definition s) = .ok (lines, last) ∧
      lowerFunction names definition body s = .ok ([.function {
        decorators := (lowerDecorators names
          (otherDecorators (s.scopes.current.kind == .class_) definition.decorators) s).1
        header := functionHeader names s.classNames.head?
          (roleOf (s.scopes.current.kind == .class_) definition.decorators) definition
          (lowerParams names
            (splitReceiver (roleOf (s.scopes.current.kind == .class_) definition.decorators)
              definition.params).2
            (lowerDecorators names
              (otherDecorators (s.scopes.current.kind == .class_) definition.decorators) s).2).1
        valueType := valueType names
        vars := last.scopes.current.declared
        flags := last.scopes.current.flags
        body := lines }], after) := by
  obtain ⟨lines, last, hbody, hrun⟩ := lowerFunction_closed names definition hb s
  exact ⟨lines, last, last.closed, hbody, hrun⟩

/-- The body of a function is lowered under a frame that is opened for it. The function declares the
flags that the frame has in the end, and its header is chosen by its place and its body as a whole.
-/
theorem lowerFunction_run (definition : Python.FunctionDef) {body : Lower Block}
    (hb : Succeeds body) (s : State) : ∃ receiver inner function last after params,
      inner.scopes.current = openFunction definition receiver { kind := .function } ∧
      body inner = .ok (function.body, last) ∧ function.flags = last.scopes.current.flags ∧
      function.header = functionHeader names s.classNames.head?
        (roleOf (s.scopes.current.kind == .class_) definition.decorators) definition params ∧
      lowerFunction names definition body s = .ok ([.function function], after) := by
  obtain ⟨lines, last, after, hbody, hrun⟩ := lowerFunction_eq names definition hb s
  exact ⟨_, insideFunction names definition s, _, last, after, _, rfl, hbody, rfl, rfl, hrun⟩

/-- The body of a class, under its frame and its name. -/
theorem succeedsWithin_class {name : String} {opening : Frame → Frame} {body : Lower ClassBody}
    (hb : Succeeds body) :
    SucceedsWithin (do
      pushClassName name
      modifyFrame opening
      let body ← body
      popClassName
      return body) := by
  intro s frame
  obtain ⟨lowered, after, hrun, hg⟩ := hb { s with
    scopes := { s.scopes with nested := opening frame :: s.scopes.nested }
    classNames := name :: s.classNames }
  obtain ⟨top, rest, hn, -, hpop⟩ := hg.scopes.popFrame
  refine ⟨lowered, { after with classNames := after.classNames.tail }, top, rest, ?_, ?_, hn, hpop⟩
  · exact bind_run (f := fun body => do popClassName; return body) hrun
  · simp [hg.classNames]

theorem succeeds_lowerClass {names : LibraryNames} {definition : Python.ClassDef}
    {body : Lower ClassBody}
    (hb : Succeeds body) : Succeeds (lowerClass names definition body) := by
  refine .bind (.lift keepsPlace_currentFrame) fun frame => ?_
  have hrest : Succeeds (do
      let decorators ← lowerDecorators names definition.decorators
      let bases ← lowerBases names definition.name definition.bases
      let result ← inScope .class_ do
        pushClassName definition.name
        modifyFrame (·.reserve (Python.boundIn definition.body))
        let body ← body
        popClassName
        return body
      let nested := frame.kind == .class_
      let lowered := classOf names nested definition.name decorators bases result.2 result.1
      if nested then return [.type lowered]
      defer lowered
      return [] : Lower Block) := by
    refine .bind (.lift (keepsPlace_lowerDecorators names _)) fun decorators => ?_
    refine .bind (.lift (keepsPlace_lowerBases names _ _)) fun bases => ?_
    refine .bind (.inScope (by decide) (succeedsWithin_class hb)) fun result => ?_
    exact .ite (.pure _) (.bind (.lift (keepsPlace_defer _)) fun _ => .pure _)
  exact .ite (.bind (.lift (keepsPlace_note _ _)) fun _ => hrest) hrest

/-- The decorators and the bases of a class, and the state behind them. A class in a function comes
with a note. -/
def classHead (names : LibraryNames) (definition : Python.ClassDef) (s : State) :
    List CSharp.Expr × List CSharp.Expr × State :=
  let noted :=
    if s.scopes.current.kind == .function then
      (note "class_definition"
        ("class `" ++ definition.name ++ "` moved out of its enclosing function") s).2
    else s
  let decorators := lowerDecorators names definition.decorators noted
  let bases := lowerBases names definition.name definition.bases decorators.2
  (decorators.1, bases.1, bases.2)

/-- The state in which the body of a class is lowered: a frame is open for it, and its name is the
innermost one. -/
def insideClass (names : LibraryNames) (definition : Python.ClassDef) (s : State) : State :=
  let before := (classHead names definition s).2.2
  { before with
    scopes := { before.scopes with
      nested := Frame.reserve { kind := .class_ } (Python.boundIn definition.body) ::
        before.scopes.nested }
    classNames := definition.name :: before.classNames }

/-- What a class becomes, its lowered body and the state behind it given. -/
def loweredClass (names : LibraryNames) (definition : Python.ClassDef) (s : State)
    (lowered : ClassBody) (last : State) : CSharp.Class :=
  classOf names (s.scopes.current.kind == .class_) definition.name (classHead names definition s).1
    (classHead names definition s).2.1 last.scopes.current lowered

/-- A class stands in place inside a class, and behind the top level otherwise. -/
def placeClass (nested : Bool) (type : CSharp.Class) (s : State) : Block × State :=
  if nested then ([.type type], s) else ([], { s with types := s.types ++ [type] })

theorem placeClass_cases (nested : Bool) (type : CSharp.Class) (s : State) :
    (placeClass nested type s).1 = [.type type] ∨
      (placeClass nested type s).1 = [] ∧
        ∃ earlier, (placeClass nested type s).2.types = earlier ++ [type] := by
  cases nested with
  | true => exact .inl rfl
  | false => exact .inr ⟨rfl, s.types, rfl⟩

theorem placeClass_mem (nested : Bool) (type : CSharp.Class) (s : State) :
    (placeClass nested type s).1 = [.type type] ∨
      (placeClass nested type s).1 = [] ∧ type ∈ (placeClass nested type s).2.types := by
  refine (placeClass_cases nested type s).imp_right fun ⟨hlines, earlier, htypes⟩ => ⟨hlines, ?_⟩
  rw [htypes]
  exact List.mem_append_right _ (List.mem_singleton_self type)

theorem scopes_placeClass (nested : Bool) (type : CSharp.Class) (s : State) :
    (placeClass nested type s).2.scopes = s.scopes := by
  cases nested <;> rfl

/-- Behind a class whose body leaves as many scopes open as it finds, the scope of the body is
closed again and the name of the class is gone. -/
theorem lowerClass_of_run (definition : Python.ClassDef) {body : Lower ClassBody} {s last : State}
    {lowered : ClassBody} (hrun : body (insideClass names definition s) = .ok (lowered, last))
    (hlength : last.scopes.nested.length = (insideClass names definition s).scopes.nested.length) :
    lowerClass names definition body s = .ok (placeClass (s.scopes.current.kind == .class_)
      (loweredClass names definition s lowered last)
        { last.closed with classNames := last.classNames.tail }) := by
  let nested := s.scopes.current.kind == .class_
  let head := classHead names definition s
  let place (result : ClassBody × Frame) : Lower Block := do
    let type := classOf names nested definition.name head.1 head.2.1 result.2 result.1
    if nested then return [.type type]
    defer type
    return []
  let under : Lower (ClassBody × Frame) := inScope .class_ do
    pushClassName definition.name
    modifyFrame (·.reserve (Python.boundIn definition.body))
    let body ← body
    popClassName
    return body
  have hstart : lowerClass names definition body s = (under >>= place) head.2.2 := by
    show (if s.scopes.current.kind == .function then _ else _ : Lower Block) s = _
    dsimp only [place, head, classHead]
    split <;> rfl
  obtain ⟨top, rest, hn⟩ := List.exists_cons_of_length_eq_add_one hlength
  have hrest : rest.length = head.2.2.scopes.nested.length := by
    rw [hn] at hlength
    exact Nat.succ.inj hlength
  let left : State := { last with classNames := last.classNames.tail }
  have hn' : left.scopes.nested = top :: rest := hn
  have hscope : under head.2.2 =
      .ok ((lowered, top), { left with scopes := { left.scopes with nested := rest } }) := by
    refine inScope_run (by decide) ?_ hn' hrest
    exact bind_run (f := fun body => do popClassName; return body) hrun
  obtain ⟨hcurrent, hclosed⟩ := State.closed_eq hn
  rw [hstart, bind_run hscope, hclosed, loweredClass, hcurrent]
  dsimp only [place, placeClass, nested]
  split <;> rfl

theorem lowerClass_closed (definition : Python.ClassDef) {body : Lower ClassBody}
    (hb : Succeeds body) (s : State) : ∃ lowered last,
      body (insideClass names definition s) = .ok (lowered, last) ∧
      lowerClass names definition body s = .ok (placeClass (s.scopes.current.kind == .class_)
        (loweredClass names definition s lowered last)
          { last.closed with classNames := last.classNames.tail }) := by
  obtain ⟨lowered, last, hrun, hg⟩ := hb (insideClass names definition s)
  exact ⟨lowered, last, hrun,
    lowerClass_of_run names definition hrun hg.scopes.nested.length_eq.symm⟩

/-- The body of a class is lowered under a frame that is opened for it. The class stands in place or
behind the top level, and declares the flags that the frame has in the end. -/
theorem lowerClass_run (definition : Python.ClassDef) {body : Lower ClassBody}
    (hb : Succeeds body) (s : State) : ∃ inner lowered type last after lines,
      inner.scopes.current = Frame.reserve { kind := .class_ } (Python.boundIn definition.body) ∧
      body inner = .ok (lowered, last) ∧ type.initializer = lowered.initializer ∧
      type.flags = last.scopes.current.flags ∧
      lowerClass names definition body s = .ok (lines, after) ∧
      (lines = [.type type] ∨ lines = [] ∧ type ∈ after.types) := by
  obtain ⟨lowered, last, hbody, hrun⟩ := lowerClass_closed names definition hb s
  let type := loweredClass names definition s lowered last
  let placed := placeClass (s.scopes.current.kind == .class_) type
    { last.closed with classNames := last.classNames.tail }
  exact ⟨insideClass names definition s, lowered, type, last, placed.2, placed.1, rfl, hbody, rfl,
    rfl, hrun, placeClass_mem _ _ _⟩

/-! ## Whole trees -/

mutual

theorem succeeds_lowerStmt : ∀ s : Python.Stmt, Succeeds (lowerStmt names s)
  | ⟨kind, span⟩ => by
    intro s
    obtain ⟨block, after, hrun, hg, -⟩ := located_run (succeeds_lowerKind kind) span s
    exact ⟨block, after, by rw [lowerStmt]; exact hrun, hg⟩

theorem succeeds_lowerKind : ∀ kind : Python.StmtKind, Succeeds (lowerKind names kind)
  | .expr value => .lift (keepsPlace_lowerExprStmt names value)
  | .assign targets value => .lift (keepsPlace_lowerAssign names targets value)
  | .annAssign target hint value => .lift (keepsPlace_lowerAnnAssign names target hint value)
  | .augAssign target op value => .lift (keepsPlace_lowerAugAssign names target op value)
  | .ifChain branches orelse => by
    rw [lowerKind]
    refine .bind (succeeds_lowerBranches branches) fun _ => ?_
    exact .map (.optionally (succeeds_lowerOrelse orelse)) _
  | .whileLoop test body orelse => by
    rw [lowerKind]
    exact succeeds_lowerWhile (succeeds_lowerBlock body) (succeeds_lowerOrelse orelse)
  | .forLoop target iter body orelse isAsync => by
    rw [lowerKind]
    exact succeeds_lowerFor (succeeds_lowerBlock body) (succeeds_lowerOrelse orelse)
  | .tryBlock body handlers orelse finalbody => by
    rw [lowerKind]
    exact succeeds_lowerTry (succeeds_lowerBlock body) (succeeds_lowerHandlers handlers)
      (succeeds_lowerOrelse orelse) (succeeds_lowerOrelse finalbody)
  | .withBlock items body isAsync => by
    rw [lowerKind]
    refine .bind (.lift (keepsPlace_lowerResources names items)) fun _ => ?_
    exact .map (succeeds_lowerBlock body) _
  | .functionDef ⟨name, params, returns, body, decorators, isAsync⟩ => by
    rw [lowerKind]
    exact succeeds_lowerFunction (succeeds_lowerBlock body)
  | .classDef ⟨name, bases, body, decorators⟩ => by
    rw [lowerKind]
    exact succeeds_lowerClass (succeeds_lowerMembers body)
  | .matchBlock subject cases => by
    rw [lowerKind]
    exact succeeds_lowerMatch (succeeds_lowerCases (isTuple subject) cases)
  | .returnStmt value => .lift (keepsPlace_lowerReturn names value)
  | .raiseStmt exc cause => .lift (keepsPlace_lowerRaise names exc cause)
  | .deleteStmt targets => .lift (keepsPlace_lowerDeletes names targets)
  | .assertStmt test msg => .lift (keepsPlace_lowerAssert names test msg)
  | .importStmt entries => .lift (keepsPlace_lowerImport entries)
  | .importFrom path entries wildcard => .lift (keepsPlace_lowerImportFrom path entries wildcard)
  | .globalStmt ids => .lift (keepsPlace_lowerGlobal ids)
  | .nonlocalStmt ids => .lift (keepsPlace_lowerNonlocal ids)
  | .passStmt => .pure _
  | .breakStmt => .lift keepsPlace_lowerBreak
  | .continueStmt => .pure _
  | .comment _ => .pure _
  | .unsupported kind text => .lift (keepsPlace_lowerUnsupported kind text)

theorem succeeds_lowerBlock : ∀ body : List Python.Stmt, Succeeds (lowerBlock names body)
  | [] => .pure _
  | s :: rest => by
    rw [lowerBlock]
    exact .bind (succeeds_lowerStmt s) fun _ => .map (succeeds_lowerBlock rest) _

theorem succeeds_lowerOrelse :
    ∀ (body : Option (List Python.Stmt)), ∀ x ∈ lowerOrelse names body, Succeeds x
  | none => by simp [lowerOrelse]
  | some body => by
    have hb := succeeds_lowerBlock body
    simpa [lowerOrelse] using hb

theorem succeeds_lowerBranches :
    ∀ branches : List Python.Branch, Succeeds (lowerBranches names branches)
  | [] => .pure _
  | ⟨test, body⟩ :: rest => by
    rw [lowerBranches]
    refine .bind (.lift (keepsPlace_lowerExpr names test)) fun _ => ?_
    exact .bind (succeeds_lowerBlock body) fun _ => .map (succeeds_lowerBranches rest) _

theorem succeeds_lowerHandlers :
    ∀ handlers : List Python.Handler, Succeeds (lowerHandlers names handlers)
  | [] => .pure _
  | ⟨types, name, body, span⟩ :: rest => by
    rw [lowerHandlers]
    refine .bind (.moveTo span) fun _ => ?_
    refine .bind (.lift (keepsPlace_lowerCaught names types name)) fun _ => ?_
    exact .bind (succeeds_lowerBlock body) fun _ => .map (succeeds_lowerHandlers rest) _

theorem succeeds_lowerCases (tupleSubject : Bool) :
    ∀ cases : List Python.MatchCase, Succeeds (lowerCases names tupleSubject cases)
  | [] => .pure _
  | ⟨pattern, guard, body, span⟩ :: rest => by
    rw [lowerCases]
    refine .bind (.moveTo span) fun _ => ?_
    refine .bind (.lift (keepsPlace_lowerLabel names tupleSubject pattern guard)) fun _ => ?_
    exact .bind (succeeds_lowerBlock body) fun _ =>
      .map (succeeds_lowerCases tupleSubject rest) _

theorem succeeds_lowerMembers : ∀ body : List Python.Stmt, Succeeds (lowerMembers names body)
  | [] => .pure _
  | s :: rest => by
    have hs := succeeds_lowerStmt s
    have hr := succeeds_lowerMembers rest
    rw [lowerMembers]
    split
    · exact hr
    · exact .bind hs fun _ => .map hr _

end

/-- A function as a statement. -/
theorem lowerFunctionDef_closed (definition : Python.FunctionDef) (span : Python.Span) (s : State) :
    ∃ lines last after,
      lowerBlock names definition.body (insideFunction names definition { s with span := span }) =
        .ok (lines, last) ∧
      lowerStmt names ⟨.functionDef definition, span⟩ s =
        .ok ([.function (loweredFunction names definition { s with span := span } lines last)],
          after) := by
  obtain ⟨name, params, returns, body, decorators, isAsync⟩ := definition
  obtain ⟨lines, last, hbody, hrun⟩ := lowerFunction_closed names ⟨name, params, returns, body,
    decorators, isAsync⟩ (succeeds_lowerBlock names body) { s with span := span }
  refine ⟨lines, last, { last.closed with span := s.span }, hbody, ?_⟩
  rw [lowerStmt, lowerKind]
  exact located_eq hrun

/-- A class as a statement: it stands among the lines, or behind the types of before. -/
theorem lowerClassDef_closed (definition : Python.ClassDef) (span : Python.Span) (s : State) :
    ∃ type lowered last lines after,
      lowerMembers names definition.body (insideClass names definition { s with span := span }) =
        .ok (lowered, last) ∧
      type = loweredClass names definition { s with span := span } lowered last ∧
      lowerStmt names ⟨.classDef definition, span⟩ s = .ok (lines, after) ∧
      (lines = [.type type] ∨ lines = [] ∧ ∃ earlier, after.types = earlier ++ [type]) := by
  obtain ⟨name, bases, body, decorators⟩ := definition
  let definition : Python.ClassDef := ⟨name, bases, body, decorators⟩
  let start : State := { s with span := span }
  obtain ⟨lowered, last, hbody, hrun⟩ :=
    lowerClass_closed names definition (succeeds_lowerMembers names body) start
  let type := loweredClass names definition start lowered last
  let placed := placeClass (start.scopes.current.kind == .class_) type
    { last.closed with classNames := last.classNames.tail }
  refine ⟨type, lowered, last, placed.1, { placed.2 with span := s.span }, hbody, rfl, ?_,
    placeClass_cases _ _ _⟩
  rw [lowerStmt, lowerKind]
  exact located_eq hrun

/-- The state in front of the statements of a module. -/
def moduleStart (source : Python.Module) : State :=
  let reserved := Python.boundIn source.body ++ Python.globalsOf source.body
  { scopes := { root := Frame.reserve { kind := .module_ } reserved } }

/-- The file for a module, the lines of its body and the state behind them given. -/
def moduleFile (names : LibraryNames) (body : Block) (last : State) : CSharp.File where
  usings := last.usings
  valueType := valueType names
  vars := last.scopes.current.declared
  flags := last.scopes.current.flags
  body := body
  types := last.types

theorem checkTopLevel_run {s : State} (h : s.scopes.depth = 1) (moment : String) :
    checkTopLevel moment s = .ok ((), s) := by
  have hget : (get : Lower State) s = .ok (s, s) := rfl
  rw [checkTopLevel, bind_run hget, if_neg (not_not.2 h)]
  rfl

/-- A module is lowered from the state with nothing open but its own scope. -/
theorem lowerModule_closed (source : Python.Module) : ∃ body after,
    lowerBlock names source.body (moduleStart source) = .ok (body, after) ∧
      (lowerModule names source).run {} = .ok (moduleFile names body after, after) := by
  obtain ⟨body, after, hrun, hg⟩ := succeeds_lowerBlock names source.body (moduleStart source)
  have hd : after.scopes.depth = 1 := hg.scopes.depth
  have hroot : after.scopes.root = after.scopes.current := by
    have hn : after.scopes.nested = [] := List.forall₂_nil_left_iff.1 hg.scopes.nested
    simp [Stack.current, hn]
  have hbefore : checkTopLevel "before" {} = .ok ((), {}) := rfl
  have hafter : checkTopLevel "after" after = .ok ((), after) := checkTopLevel_run hd "after"
  refine ⟨body, after, hrun, ?_⟩
  show lowerModule names source {} = _
  rw [lowerModule, bind_run hbefore, lift_bind_run, moduleFile, ← hroot]
  exact (bind_run hrun).trans ((bind_run hafter).trans rfl)

theorem lowerModule_run (source : Python.Module) : ∃ file after,
    lowerBlock names source.body (moduleStart source) = .ok (file.body, after) ∧
      file.flags = after.scopes.current.flags ∧
      (lowerModule names source).run {} = .ok (file, after) := by
  obtain ⟨body, after, hbody, hrun⟩ := lowerModule_closed names source
  exact ⟨_, after, hbody, rfl, hrun⟩

end PythonToCSharp.Lowering

namespace PythonToCSharp

open Layout Lowering
open Scope (Frame)

/-- The code for a module is its file, printed. -/
theorem lower_run {options : Options} {source : Python.Module} {file : CSharp.File} {after : State}
    (h : (lowerModule options.library source).run {} = .ok (file, after)) :
    lower options source = .ok ⟨printAll options.indentWidth 0 file.layout, after.diagnostics⟩ := by
  simp only [lower, h, file.write_eq, Bind.bind, Except.bind]
  rfl

/-- Every module is lowered and written, at every choice of options, and no fault is reachable.
Every statement is lowered from every state; the place, the classes around, the number of scopes and
the shape of every open frame are afterwards as they were before. The code for it is written from
every level, behind any text: no block is closed too often, no statement in it and no buffer for it
ends at another level than its first, and the level is in the end what it was. So it is for the
classes that are put behind the top level, which are written from level zero. -/
theorem lower_balanced :
    (∀ (options : Options) (source : Python.Module), ∃ output, lower options source = .ok output) ∧
    ∀ (names : LibraryNames) (stmt : Python.Stmt) (before : State)
      (out : Emitter), ∃ block after out', lowerStmt names stmt before = .ok (block, after) ∧
      after.span = before.span ∧
      after.classNames = before.classNames ∧
      after.scopes.depth = before.scopes.depth ∧
      after.scopes.frames.map Frame.shape = before.scopes.frames.map Frame.shape ∧
      CSharp.writeAll block out = .ok out' ∧
      out'.level = out.level ∧
      ∀ type ∈ after.types, ∃ text, Write.capture out.width 0 type.write = .ok text := by
  refine ⟨fun options source => ?_, fun names stmt before out => ?_⟩
  · obtain ⟨file, after, -, -, hrun⟩ := lowerModule_run options.library source
    exact ⟨_, lower_run hrun⟩
  · obtain ⟨kind, span⟩ := stmt
    obtain ⟨block, after, hrun, hg, hspan⟩ :=
      located_run (succeeds_lowerKind names kind) span before
    refine ⟨block, after, _, ?_, hspan, hg.classNames, hg.scopes.depth, hg.scopes.map_shape,
      CSharp.writes_all block out, rfl, fun type _ => ⟨_, type.writes.capture out.width 0⟩⟩
    rw [lowerStmt]
    exact hrun

/-- The code for a module is the printing of one forest of lines, blocks and deeper stretches. The
forest and the findings depend on the module and the names of the library alone; the width of a
level matters only when the forest is printed. It makes no difference that bodies, members, static
constructors and types are written into buffers: each comes out at the depth where its text is put
in. -/
theorem code_prints_one_forest :
    (∀ (names : LibraryNames) (source : Python.Module),
      ∃ (file : CSharp.File) (diagnostics : List Diagnostic),
      ∀ width, lower { indentWidth := width, library := names } source =
          .ok ⟨printAll width 0 file.layout, diagnostics⟩ ∧
        file.write width = .ok (printAll width 0 file.layout)) ∧
    (∀ (stmt : CSharp.Stmt) (out : Emitter),
      stmt.write out = .ok (out.raw (printAll out.width out.level stmt.layout))) ∧
    ∀ (declaration : CSharp.Class) (width level : Nat),
      Write.capture width level declaration.write =
        .ok (printAll width level declaration.layout) := by
  refine ⟨fun names source => ?_, CSharp.Stmt.writes, fun declaration => declaration.writes.capture⟩
  obtain ⟨file, after, -, -, hrun⟩ := Lowering.lowerModule_run names source
  exact ⟨file, after.diagnostics, fun width => ⟨lower_run hrun, file.write_eq width⟩⟩

end PythonToCSharp
