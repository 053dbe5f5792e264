import PythonToCSharp.Proofs.Classes.Emission
import PythonToCSharp.Proofs.Naming.Receiver

/-!
The bodies of definitions, and whole trees.

A body is lowered under a frame of its own. Under the frame of a function everything is taken up by
the frames below, as if the function were not there; the frame of a class takes the fields, and
nothing else of it is left when it is closed. With this for definitions, every statement at every
site leaves what its outline says, by induction over the tree.
-/

namespace PythonToCSharp

namespace Trace

variable {δ τ : Type} (ofClass : Bool) (traces : List (Trace δ τ))

/-- What is neither a definition in place nor a field leaves every definition. -/
theorem filterMap_leaves {ε : Type} {f : Trace δ τ → Option ε}
    (hstanding : ∀ definition, f (.standing definition) = none)
    (hfield : ∀ attr, f (.field attr) = none) :
    (traces.filter (leaves ofClass)).filterMap f = traces.filterMap f := by
  induction traces with
  | nil => rfl
  | cons trace rest ih =>
    cases trace with
    | field attr =>
      rw [List.filterMap_cons_none (hfield attr)]
      cases ofClass with
      | true => exact ih
      | false => exact (List.filterMap_cons_none (hfield attr)).trans ih
    | standing definition =>
      rw [List.filterMap_cons_none (hstanding definition)]
      exact ih
    | directive text | finished behind type =>
      show List.filterMap f (_ :: rest.filter (leaves ofClass)) = _
      rw [List.filterMap_cons, List.filterMap_cons, ih]

theorem finished_leaves :
    (traces.filter (leaves ofClass)).filterMap finished? = traces.filterMap finished? :=
  filterMap_leaves ofClass traces (fun _ => rfl) fun _ => rfl

theorem behind_leaves :
    (traces.filter (leaves ofClass)).filterMap behind? = traces.filterMap behind? :=
  filterMap_leaves ofClass traces (fun _ => rfl) fun _ => rfl

/-- What stands in a definition does not leave it. -/
theorem standing_leaves : (traces.filter (leaves ofClass)).filterMap standing? = [] := by
  induction traces with
  | nil => rfl
  | cons trace rest ih =>
    cases trace with
    | field attr => cases ofClass <;> exact ih
    | _ => exact ih

end Trace

namespace Lowering

open CSharp (classesIn classesIn_eq definitionsIn definitionsIn_append definitionsOf ownBranches
  ownCatches ownOptional ownSections)
open Python (Mark Site directDefinitions fieldMarks innerDefinitions outlineBlock outlineBranches
  outlineCases outlineHandlers outlineOptional)
open Scope (Frame Stack)

variable {names : LibraryNames} {site : Site} {marks first rest : List Mark}
  {emitted : List Emission}

/-! ## Frames of definitions -/

/-- The state with one more frame open. -/
def State.push (s : State) (frame : Frame) : State :=
  { s with scopes := { s.scopes with nested := frame :: s.scopes.nested } }

theorem State.closed_push (s : State) (frame : Frame) : (s.push frame).closed = s := rfl

theorem State.face_closed (s : State) : s.closed.face = s.face.closed := by
  unfold closed face Stack.face
  simp only [List.map_tail]

/-- A frame that is no class takes up nothing. -/
theorem State.receiveAll_push {frame : Frame} (hkind : frame.kind ≠ .class_) (s : State)
    (emitted : List Emission) :
    (s.push frame).receiveAll emitted = (s.receiveAll emitted).push frame := by
  have hstep (s : State) (one : Emission) :
      (s.push frame).receive one = (s.receive one).push frame := by
    cases one with
    | field attr =>
      have hin : Stack.addFieldIn attr (frame :: s.scopes.nested) = frame ::
          Stack.addFieldIn attr s.scopes.nested :=
        if_neg hkind
      exact congrArg (fun nested => { s with scopes := { s.scopes with nested := nested } }) hin
    | finished behind type => cases behind <;> rfl
    | _ => rfl
  induction emitted generalizing s with
  | nil => rfl
  | cons one rest ih =>
    show ((s.push frame).receive one).receiveAll rest = _
    rw [hstep, ih]
    rfl

/-- The frame after attributes are recorded in it. -/
def addFields (frame : Frame) (attrs : List String) : Frame :=
  attrs.foldl Frame.addField frame

/-- The frame of a class takes up the fields, and those below it all else. -/
theorem State.receiveAll_push_class {frame : Frame} (hkind : frame.kind = .class_) (s : State)
    (emitted : List Emission) :
    (s.push frame).receiveAll emitted =
      (s.receiveAll (emitted.filter (Trace.leaves true))).push
        (addFields frame (emitted.filterMap Trace.field?)) := by
  induction emitted generalizing s frame with
  | nil => rfl
  | cons one rest ih =>
    cases one with
    | directive text => exact ih hkind (s.receive (.directive text))
    | field attr =>
      have hin : Stack.addFieldIn attr (frame :: s.scopes.nested) = frame.addField attr ::
          s.scopes.nested :=
        if_pos hkind
      have hfirst : (s.push frame).receive (.field attr) = s.push (frame.addField attr) :=
        congrArg (fun nested => { s with scopes := { s.scopes with nested := nested } }) hin
      show ((s.push frame).receive (.field attr)).receiveAll rest = _
      rw [hfirst]
      exact ih (show (frame.addField attr).kind = .class_ from hkind) s
    | standing line => exact ih hkind s
    | finished behind type =>
      cases behind with
      | false => exact ih hkind s
      | true => exact ih hkind (s.receive (.finished true type))

/-- What stands in a body is nothing to the state. -/
theorem State.receiveAll_leaves (s : State) (emitted : List Emission) :
    s.receiveAll (emitted.filter (Trace.leaves false)) = s.receiveAll emitted := by
  induction emitted generalizing s with
  | nil => rfl
  | cons one rest ih =>
    cases one with
    | standing line => exact ih s
    | _ => exact ih _

theorem State.receiveAll_classNames (s : State) (classNames : List String)
    (emitted : List Emission) : State.receiveAll { s with classNames := classNames } emitted =
      { s.receiveAll emitted with classNames := classNames } := by
  induction emitted generalizing s with
  | nil => rfl
  | cons one rest ih =>
    cases one with
    | directive text => exact ih (s.receive (.directive text))
    | field attr => exact ih (s.receive (.field attr))
    | standing line => exact ih s
    | finished behind type =>
      cases behind with
      | false => exact ih s
      | true => exact ih (s.receive (.finished true type))

/-! ## Functions -/

theorem stands_insideFunction {s : State} (definition : Python.FunctionDef) (hs : Stands site s) :
    Stands (definition.site site) (insideFunction names definition s) := by
  have haround := around_insideFunction names definition s
  refine ⟨?_, fun _ h => (nomatch h), ?_⟩
  · rw [haround.kind]
    rfl
  · rw [haround.receiver]
    unfold functionPlace Python.FunctionDef.site Python.FunctionDef.receiverAt
    rw [hs.inClass, hs.receiver]

/-- Before its body, a function only opens its frame. -/
theorem face_insideFunction (names : LibraryNames) (definition : Python.FunctionDef) (s : State) :
    ∃ frame : Frame,
    frame.kind = .function ∧ (insideFunction names definition s).face = s.face.push frame := by
  let inClass := s.scopes.current.kind == .class_
  let split := splitReceiver (roleOf inClass definition.decorators) definition.params
  let decorated := (lowerDecorators names (otherDecorators inClass definition.decorators) s).2
  let before := (lowerParams names split.2 decorated).2
  let frame := openFunction definition split.1 { kind := .function }
  have hshape : frame.shape = (.function, split.1, Python.yieldsIn definition.body, [], 0) :=
    shape_openFunction definition split.1
  simp only [Frame.shape, Prod.mk.injEq] at hshape
  have hbefore : before.face = s.face :=
    ((composed_lowerParams names split.2).quiet decorated).trans
      ((composed_lowerDecorators names _).quiet s)
  refine ⟨frame.face, hshape.1, ?_⟩
  show (before.push frame).face = _
  rw [← hbefore]
  rfl

/-- Outside of classes, the class around does not matter for a header. -/
theorem functionHeader_home {s : State} (hs : Stands site s) (definition : Python.FunctionDef)
    (params : List CSharp.Parameter) :
    functionHeader names s.classNames.head?
      (roleOf site.home.isSome definition.decorators) definition params =
      functionHeader names site.home (roleOf site.home.isSome definition.decorators)
        definition params := by
  cases hhome : site.home with
  | some name => rw [hs.owner name hhome]
  | none =>
    show functionHeader names s.classNames.head? .free definition params = _
    unfold functionHeader
    cases s.classNames.head? <;> rfl

theorem leaves_lowerFunction {definition : Python.FunctionDef}
    (hb : Leaves names (definition.site site) marks (Holding definitionsIn)
      (lowerBlock names definition.body)) :
    Leaves names site (marks.filter (Trace.leaves false) ++ [.standing (.functionDef definition)])
      (Holding definitionsIn)
      (lowerFunction names definition (lowerBlock names definition.body)) := by
  intro s hs
  obtain ⟨lines, last, hbody, hrun⟩ :=
    lowerFunction_closed names definition (succeeds_lowerBlock names definition.body) s
  obtain ⟨_, _, emitted, hbody', hlast, hanswered, hlines⟩ :=
    hb _ (stands_insideFunction definition hs)
  obtain ⟨rfl, rfl⟩ := run_unique hbody hbody'
  obtain ⟨frame, hkind, hface⟩ := face_insideFunction names definition s
  let function := loweredFunction names definition s lines last
  have hclosed : last.closed.face = s.face.receiveAll (emitted.filter (Trace.leaves false)) := by
    rw [State.face_closed, hlast, hface, State.receiveAll_push (by rw [hkind]; decide),
      State.closed_push, State.receiveAll_leaves]
  -- the body stands in no class, so there is none in it
  have hclassless : classesIn lines = [] := by
    rw [classesIn_eq, show definitionsIn lines = _ from hlines]
    exact hanswered.classless
  have hbecomes : Becomes names site.home (.functionDef definition) (.function function) := by
    let split := splitReceiver (roleOf site.home.isSome definition.decorators) definition.params
    let decorated :=
      (lowerDecorators names (otherDecorators site.home.isSome definition.decorators) s).2
    have hheader : function.header = functionHeader names site.home
        (roleOf site.home.isSome definition.decorators)
        definition (lowerParams names split.2 decorated).1 := by
      rw [← functionHeader_home hs]
      simp only [split, decorated, ← hs.inClass]
      rfl
    exact .function hheader hclassless
  have harises : Arises names (.function function) := by
    refine .function hbody ?_
    rw [show definitionsIn lines = _ from hlines]
    exact hanswered.arises_standing
  have hkept : Kept (emitted.filter (Trace.leaves false) ++ [.standing (.function function)]) := by
    refine Kept.append ?_ ?_
    · have hkept := hanswered.kept
      unfold Kept at hkept ⊢
      rw [Trace.finished_leaves, Trace.behind_leaves, Trace.standing_leaves]
      rwa [hanswered.classless] at hkept
    · show List.Perm [] ((CSharp.Stmt.function function).classes ++ [])
      rw [CSharp.Stmt.classes_function]
      exact .of_eq (congrArg (· ++ []) hclassless).symm
  refine ⟨_, last.closed, emitted.filter (Trace.leaves false) ++ [.standing (.function function)],
    hrun, ?_,
    ⟨List.rel_append (hanswered.leaving false) (.cons (.standing hbecomes harises) .nil), hkept⟩,
      ?_⟩
  · rw [State.receiveAll_append, hclosed]
    rfl
  · rw [Holding, List.filterMap_append, Trace.standing_leaves]
    rfl

/-! ## Classes -/

theorem quiet_classHead (names : LibraryNames) (definition : Python.ClassDef) (s : State) :
    (classHead names definition s).2.2.face = s.face := by
  have hnoted (noted : State) : (lowerBases names definition.name definition.bases
      (lowerDecorators names definition.decorators noted).2).2.face = noted.face :=
    ((composed_lowerBases names _ _).quiet _).trans ((composed_lowerDecorators names _).quiet noted)
  unfold classHead
  dsimp only
  split
  · exact (hnoted _).trans ((Composed.note _ _).quiet s)
  · exact hnoted s

/-- Before its body, a class opens its frame and gives its name. -/
theorem face_insideClass (definition : Python.ClassDef) (s : State) :
    (insideClass names definition s).face =
      State.push { s.face with classNames := definition.name :: s.classNames }
      { kind := .class_ } := by
  have hbefore := quiet_classHead names definition s
  have hfaces := congrArg State.classNames hbefore
  have hnames : (classHead names definition s).2.2.classNames = s.classNames := hfaces
  unfold insideClass
  rw [← hbefore, ← hnames]
  rfl

theorem stands_insideClass (definition : Python.ClassDef) (s : State) :
    Stands definition.site (insideClass names definition s) := by
  refine ⟨rfl, ?_, rfl⟩
  intro name hname
  obtain rfl : definition.name = name := Option.some.inj hname
  rfl

/-- When a class is closed, its frame holds the fields that arose in its body, each once, and all
else is taken up by the frames below. -/
theorem closed_class {definition : Python.ClassDef} {s last : State}
    (h : last.face = (insideClass names definition s).face.receiveAll emitted) :
    State.face { last.closed with classNames := last.classNames.tail } =
        s.face.receiveAll (emitted.filter (Trace.leaves true)) ∧
      last.scopes.current.fields = (emitted.filterMap Trace.field?).foldl Scope.insertNew [] := by
  let below := s.face.receiveAll (emitted.filter (Trace.leaves true))
  rw [face_insideClass, State.receiveAll_push_class rfl, State.receiveAll_classNames] at h
  have hnames : last.classNames = definition.name :: s.classNames := congrArg State.classNames h
  have hspot := s.face.spot_receiveAll (emitted.filter (Trace.leaves true))
  simp only [State.spot, Prod.mk.injEq] at hspot
  have hbelow : s.classNames = below.classNames := hspot.2.2.symm
  have hclosed :
      last.closed.face = { below with classNames := definition.name :: s.classNames } := by
    rw [State.face_closed, h, State.closed_push]
  constructor
  · show { last.closed.face with classNames := last.classNames.tail } = below
    rw [hclosed, hnames, List.tail_cons, hbelow]
  · have hcurrent := congrArg (fun state => state.scopes.current.fields) h
    have hfields (frame : Frame) (attrs : List String) :
        (addFields frame attrs).fields = attrs.foldl Scope.insertNew frame.fields := by
      induction attrs generalizing frame with
      | nil => rfl
      | cons attr rest ih => exact ih (frame.addField attr)
    have hface : last.face.scopes.current = last.scopes.current.face := last.scopes.current_face
    rw [hface] at hcurrent
    exact hcurrent.trans (hfields _ _)

/-- What becomes of the definitions in the body of a class. -/
structure Divides (names : LibraryNames) (site : Site) (body : List Python.Stmt)
    (lowered : ClassBody) (emitted : List Emission) : Prop where
  members : BecomeAll names site.home (directDefinitions body) (definitionsIn lowered.members)
  initializer :
    BecomeAll names site.home (innerDefinitions site body) (definitionsIn lowered.initializer)
  all : (definitionsIn lowered.initializer ++ definitionsIn lowered.members).Perm
    (emitted.filterMap Trace.standing?)

theorem kept_ofClass {type : CSharp.Class} (h : Kept emitted)
    (hall : (definitionsIn type.initializer ++ definitionsIn type.members).Perm
      (emitted.filterMap Trace.standing?))
    (nested : Bool) :
    Kept (emitted.filter (Trace.leaves true) ++ Trace.ofClass nested (.type type) type) := by
  have hinside :
      type.classes.Perm (type :: (emitted.filterMap Trace.standing?).flatMap
        CSharp.Stmt.classes) := by
    rw [CSharp.Class.classes_eq, classesIn_eq, classesIn_eq, ← List.flatMap_append]
    exact .cons _ (hall.flatMap_right _)
  have hfinished : (emitted.filterMap Trace.finished? ++ [type]).Perm
      ((emitted.filterMap Trace.behind?).flatMap CSharp.Class.classes ++ type.classes) := by
    refine (h.append_right [type]).trans ?_
    rw [List.append_assoc]
    refine .append_left _ (List.perm_append_comm.trans hinside.symm)
  unfold Kept
  rw [List.filterMap_append, List.filterMap_append, List.filterMap_append, Trace.finished_leaves,
    Trace.behind_leaves, Trace.standing_leaves]
  cases nested with
  | true =>
    show (_ ++ [type]).Perm ((_ ++ []).flatMap _ ++ [CSharp.Stmt.type type].flatMap _)
    rwa [List.append_nil, List.flatMap_singleton, CSharp.Stmt.classes_type]
  | false =>
    show (_ ++ [type]).Perm ((_ ++ [type]).flatMap _ ++ [])
    rwa [List.flatMap_append, List.flatMap_singleton, List.append_nil]

/-- The class that is left stands in place inside a class, and behind the top level otherwise. -/
theorem answers_ofClass {definition : Python.ClassDef} {type : CSharp.Class} {home : Option String}
    (h : Declares names home.isSome definition type) (harises : Arises names (.type type)) :
    List.Forall₂ (Answers names home) (Trace.ofClass home.isSome (.classDef definition) definition)
      (Trace.ofClass home.isSome (.type type) type) := by
  cases home with
  | none => exact .cons (.finished h harises) .nil
  | some name => exact .cons (.finished h harises) (.cons (.standing (.type h) harises) .nil)

theorem leaves_lowerClass {definition : Python.ClassDef}
    (hb : Leaves names definition.site marks (Divides names definition.site definition.body)
      (lowerMembers names definition.body)) :
    Leaves names site (marks.filter (Trace.leaves true) ++
      Trace.ofClass site.home.isSome (.classDef definition) definition) (Holding definitionsIn)
      (lowerClass names definition (lowerMembers names definition.body)) := by
  intro s hs
  obtain ⟨lowered, last, hbody, hrun⟩ :=
    lowerClass_closed names definition (succeeds_lowerMembers names definition.body) s
  obtain ⟨_, _, emitted, hbody', hlast, hanswered, hdivides⟩ :=
    hb _ (stands_insideClass definition s)
  obtain ⟨rfl, rfl⟩ := run_unique hbody hbody'
  rw [hs.inClass] at hrun
  let type := loweredClass names definition s lowered last
  let left := emitted.filter (Trace.leaves true)
  let closed : State := { last.closed with classNames := last.classNames.tail }
  have hdeclares : Declares names site.home.isSome definition type :=
    .mk rfl hs.inClass hdivides.members hdivides.initializer
  have hall (line : CSharp.Stmt)
      (hline : line ∈ definitionsIn lowered.initializer ++ definitionsIn lowered.members) :
      Arises names line := hanswered.arises_standing line (hdivides.all.mem_iff.1 hline)
  have harises : Arises names (.type type) :=
    .type hbody (fun line hline => hall line (List.mem_append_left _ hline)) fun line hline =>
      hall line (List.mem_append_right _ hline)
  have hclosed : closed.face = s.face.receiveAll left := (closed_class hlast).1
  refine ⟨_, _, left ++ Trace.ofClass site.home.isSome (.type type) type, hrun, ?_,
    ⟨List.rel_append (hanswered.leaving true) (answers_ofClass hdeclares harises),
      kept_ofClass hanswered.kept hdivides.all _⟩, ?_⟩
  · rw [State.receiveAll_append, ← hclosed]
    cases site.home.isSome <;> rfl
  · rw [Holding, List.filterMap_append, Trace.standing_leaves]
    cases site.home.isSome <;> rfl

/-! ## Members -/

theorem BecomeAll.append {home : Option String} {kinds others : List Python.StmtKind}
    {lines more : List CSharp.Stmt}
    (h : BecomeAll names home kinds lines) (h' : BecomeAll names home others more) :
    BecomeAll names home (kinds ++ others) (lines ++ more) :=
  becomeAll_iff.2 (List.rel_append (becomeAll_iff.1 h) (becomeAll_iff.1 h'))

theorem directDefinitions_cons (s : Python.Stmt) (body : List Python.Stmt) :
    directDefinitions (s :: body) = (if s.kind.isDefinition then [s.kind] else []) ++
      directDefinitions body := by
  unfold directDefinitions
  rw [List.map_cons, List.filter_cons]
  split <;> rfl

theorem innerDefinitions_cons (site : Site) (s : Python.Stmt) (body : List Python.Stmt) :
    innerDefinitions site (s :: body) =
      (if s.kind.isDefinition then [] else (s.kind.outline site).filterMap Trace.standing?) ++
        innerDefinitions site body := by
  unfold innerDefinitions
  rw [List.map_cons, List.filter_cons]
  cases s.kind.isDefinition <;> rfl

/-- What is left out of a class leaves nothing. -/
theorem outline_of_nowhere (site : Site) {kind : Python.StmtKind}
    (h : memberPlace kind = .nowhere) : kind.outline site = [] ∧ kind.isDefinition = false := by
  unfold memberPlace at h
  split at h
  · exact ⟨rfl, rfl⟩
  · exact ⟨rfl, rfl⟩
  all_goals cases h

/-- Among what stands in a class itself there are only definitions, comments aside. -/
theorem standing_of_members {kind : Python.StmtKind} (hhome : site.home.isSome = true)
    (h : memberPlace kind = .members) :
    (kind.outline site).filterMap Trace.standing? = if kind.isDefinition then [kind] else [] := by
  cases kind with
  | functionDef definition =>
    obtain ⟨name, params, returns, body, decorators, isAsync⟩ := definition
    rw [Python.StmtKind.outline, List.filterMap_append, Trace.standing_leaves]
    rfl
  | classDef definition =>
    obtain ⟨name, bases, body, decorators⟩ := definition
    rw [Python.StmtKind.outline, List.filterMap_append, Trace.standing_leaves, hhome]
    rfl
  | expr value =>
    cases value with
    | str literal => rfl
    | ellipsis => cases h
    | _ => cases h
  | comment text => rfl
  | _ => cases h

theorem not_isDefinition_of_initializer {kind : Python.StmtKind}
    (h : memberPlace kind = .initializer) : kind.isDefinition = false := by
  cases kind with
  | functionDef definition => cases h
  | classDef definition => cases h
  | _ => rfl

/-- One more statement in front of a body that is divided. -/
theorem Divides.add {kind : Python.StmtKind} {span : Python.Span} {body : List Python.Stmt}
    {lines : Block} {others : ClassBody} {later : List Emission} (hhome : site.home.isSome = true)
    (hplace : memberPlace kind ≠ .nowhere)
    (hanswered : Answered names site.home (kind.outline site) emitted)
    (hlines : Holding definitionsIn lines emitted) (h : Divides names site body others later) :
    Divides names site (⟨kind, span⟩ :: body) (others.add (memberPlace kind) lines)
      (emitted ++ later) := by
  have hfirst := hanswered.standing
  rw [Holding] at hlines
  rw [← hlines] at hfirst
  have hdirect := directDefinitions_cons ⟨kind, span⟩ body
  have hinner := innerDefinitions_cons site ⟨kind, span⟩ body
  have hstanding : (emitted ++ later).filterMap Trace.standing? =
      definitionsIn lines ++ later.filterMap Trace.standing? := by
    rw [List.filterMap_append, ← hlines]
  dsimp only at hdirect hinner
  cases hkind : memberPlace kind with
  | nowhere => exact absurd hkind hplace
  | members =>
    rw [standing_of_members hhome hkind] at hfirst
    refine ⟨?_, ?_, ?_⟩
    · show BecomeAll names site.home _ (definitionsIn (lines ++ others.members))
      rw [hdirect, definitionsIn_append]
      exact hfirst.append h.members
    · show BecomeAll names site.home _ (definitionsIn others.initializer)
      rw [hinner, standing_of_members hhome hkind]
      have hnil :
          (if kind.isDefinition then [] else if kind.isDefinition then [kind] else []) = [] := by
        split <;> rfl
      rw [hnil]
      exact h.initializer
    · show (definitionsIn others.initializer ++ definitionsIn (lines ++ others.members)).Perm _
      rw [definitionsIn_append, hstanding, ← List.append_assoc]
      exact (List.perm_append_comm.append_right _).trans
        (List.append_assoc _ _ _ ▸ h.all.append_left (definitionsIn lines))
  | initializer =>
    have hno := not_isDefinition_of_initializer hkind
    rw [hno] at hdirect hinner
    refine ⟨?_, ?_, ?_⟩
    · rw [hdirect]
      exact h.members
    · show BecomeAll names site.home _ (definitionsIn (lines ++ others.initializer))
      rw [hinner, definitionsIn_append]
      exact hfirst.append h.initializer
    · show (definitionsIn (lines ++ others.initializer) ++ definitionsIn others.members).Perm _
      rw [definitionsIn_append, hstanding, List.append_assoc]
      exact h.all.append_left _

/-! ## Whole trees -/

theorem noDefinitions_lowerExprStmt (value : Python.Expr) (s : State) :
    definitionsIn (lowerExprStmt names value s).1 = [] := by
  cases value with
  | yield value =>
    cases value with
    | none => rfl
    | some value => rfl
  | yieldFrom source => rfl
  | _ => exact CSharp.Pick.definitions.inside_plain (givesPlain_lowerExprStmt names rfl s)

theorem noDefinitions_lowerReturn (value : Option Python.Expr) (s : State) :
    definitionsIn (lowerReturn names value s).1 = [] := by
  show definitionsIn ((if s.scopes.current.isGenerator then _ else _ : Render Block) s).1 = []
  split
  · cases value <;> rfl
  · rfl

/-- A statement that only assigns. -/
theorem leaves_assigned {targets : List Python.Expr} {x : Render Block}
    (hx : Receives site.self (fieldEmissions site.self targets) x) (hp : GivesPlain x) :
    Leaves names site (fieldMarks site targets ++ []) (Holding definitionsIn)
    (liftM x : Lower Block) := by
  rw [List.append_nil]
  refine .lift hx (.fields _) fun s => ?_
  rw [Holding, standing_fieldEmissions]
  exact CSharp.Pick.definitions.inside_plain (hp s)

/-- A statement that only asks for directives. -/
theorem leaves_imported {texts : List String} {x : Render Block}
    (hx : Receives site.self (texts.map .directive) x) (hp : GivesPlain x) :
    Leaves names site (texts.map .directive) (Holding definitionsIn) (liftM x : Lower Block) := by
  refine .lift hx (.directives texts) fun s => ?_
  have hnone : (texts.map Trace.directive : List Emission).filterMap Trace.standing? = [] := by
    simp [List.filterMap_map, Trace.standing?]
  rw [Holding, hnone]
  exact CSharp.Pick.definitions.inside_plain (hp s)

variable (names)

mutual

theorem leaves_lowerKind (site : Site) : ∀ kind : Python.StmtKind,
    Leaves names site (kind.outline site) (Holding definitionsIn) (lowerKind names kind)
  | .expr value => .quiet (composed_lowerExprStmt names value).quiet
      (noDefinitions_lowerExprStmt value)
  | .assign targets value =>
    leaves_assigned (receives_lowerAssign names targets value)
      (givesPlain_lowerAssign names targets value)
  | .annAssign target hint value =>
    leaves_assigned (receives_lowerAnnAssign names target hint value)
      (givesPlain_lowerAnnAssign names target hint value)
  | .augAssign target op value =>
    .plain (composed_lowerAugAssign names target op value).quiet
      (givesPlain_lowerAugAssign names target op value)
  | .ifChain branches orelse => by
    rw [lowerKind, Python.StmtKind.outline]
    refine .bind (leaves_lowerBranches site branches) fun lowered emitted _ hlowered => ?_
    refine .map (leaves_lowerOrelse site orelse) fun otherwise later _ hotherwise => ?_
    rw [Holding] at hlowered hotherwise
    simp [Holding, hlowered, hotherwise]
  | .whileLoop test body none => by
    rw [lowerKind, lowerOrelse, Python.StmtKind.outline, outlineOptional, List.append_nil]
    exact leaves_lowerWhile (leaves_lowerBlock site body)
  | .whileLoop test body (some orelse) => by
    rw [lowerKind, lowerOrelse, Python.StmtKind.outline, outlineOptional]
    exact leaves_lowerWhileElse (leaves_lowerBlock site body) (leaves_lowerBlock site orelse)
  | .forLoop target iter body none isAsync => by
    rw [lowerKind, lowerOrelse, Python.StmtKind.outline, outlineOptional, List.append_nil]
    exact leaves_lowerFor (leaves_lowerBlock site body)
  | .forLoop target iter body (some orelse) isAsync => by
    rw [lowerKind, lowerOrelse, Python.StmtKind.outline, outlineOptional, ← List.append_assoc]
    exact leaves_lowerForElse (leaves_lowerBlock site body) (leaves_lowerBlock site orelse)
  | .tryBlock body handlers orelse finalbody => by
    rw [lowerKind, Python.StmtKind.outline]
    exact leaves_lowerTry (leaves_lowerBlock site body) (leaves_lowerHandlers site handlers)
      (leaves_lowerOrelse site finalbody) (leaves_lowerOrelse site orelse)
  | .withBlock items body isAsync => by
    rw [lowerKind, Python.StmtKind.outline]
    refine .after (receives_lowerResources names items) (.fields _) fun resources => ?_
    refine .map (leaves_lowerBlock site body) fun block emitted _ hblock => ?_
    rw [Holding] at hblock
    simp [Holding, hblock, standing_fieldEmissions]
  | .functionDef ⟨name, params, returns, body, decorators, isAsync⟩ => by
    rw [lowerKind, Python.StmtKind.outline]
    exact leaves_lowerFunction (leaves_lowerBlock _ body)
  | .classDef ⟨name, bases, body, decorators⟩ => by
    rw [lowerKind, Python.StmtKind.outline]
    exact leaves_lowerClass (leaves_lowerMembers _ rfl body)
  | .matchBlock subject cases => by
    rw [lowerKind, Python.StmtKind.outline]
    exact leaves_lowerMatch (leaves_lowerCases site (isTuple subject) cases)
  | .returnStmt value => .quiet (composed_lowerReturn names value).quiet
      (noDefinitions_lowerReturn value)
  | .raiseStmt exc cause => .plain (composed_lowerRaise names exc cause).quiet
      (givesPlain_lowerRaise names exc cause)
  | .deleteStmt targets => .plain (composed_lowerDeletes names targets).quiet
      (givesPlain_lowerDeletes names targets)
  | .assertStmt test msg => .plain (composed_lowerAssert names test msg).quiet
      (givesPlain_lowerAssert names test msg)
  | .importStmt entries => leaves_imported (receives_lowerImport entries)
      (givesPlain_lowerImport entries)
  | .importFrom path entries wildcard =>
    leaves_imported (receives_lowerImportFrom path entries wildcard)
      (givesPlain_lowerImportFrom path entries wildcard)
  | .globalStmt ids => .plain (quiet_lowerGlobal ids) (givesPlain_lowerGlobal ids)
  | .nonlocalStmt ids => .plain (quiet_lowerNonlocal ids) (givesPlain_lowerNonlocal ids)
  | .passStmt => .pure rfl
  | .breakStmt => .plain composed_lowerBreak.quiet givesPlain_lowerBreak
  | .continueStmt => .pure rfl
  | .comment _ => .pure rfl
  | .unsupported kind text => .plain (composed_lowerUnsupported kind text).quiet
      (givesPlain_lowerUnsupported kind text)

theorem leaves_lowerBlock (site : Site) : ∀ body : List Python.Stmt,
    Leaves names site (outlineBlock site body) (Holding definitionsIn) (lowerBlock names body)
  | [] => .pure rfl
  | ⟨kind, span⟩ :: rest => by
    rw [lowerBlock, lowerStmt, outlineBlock]
    refine .bind ((leaves_lowerKind site kind).located span) fun lowered emitted _ hlowered => ?_
    refine .map (leaves_lowerBlock site rest) fun others later _ hothers => ?_
    rw [Holding] at hlowered hothers
    rw [Holding, definitionsIn_append, hlowered, hothers, List.filterMap_append]

theorem leaves_lowerOrelse (site : Site) : ∀ body : Option (List Python.Stmt),
    Leaves names site (outlineOptional site body)
      (Holding fun block => definitionsOf (ownOptional block)) (optionally (lowerOrelse names body))
  | none => by
    rw [lowerOrelse]
    exact .pure rfl
  | some body => by
    rw [lowerOrelse, outlineOptional]
    exact .map (leaves_lowerBlock site body) fun _ _ _ hblock => hblock

theorem leaves_lowerBranches (site : Site) : ∀ branches : List Python.Branch,
    Leaves names site (outlineBranches site branches)
      (Holding fun lowered => definitionsOf (ownBranches lowered)) (lowerBranches names branches)
  | [] => .pure rfl
  | ⟨test, body⟩ :: rest => by
    rw [lowerBranches, outlineBranches]
    refine .behind (composed_lowerExpr names test).quiet fun test => ?_
    refine .bind (leaves_lowerBlock site body) fun block emitted _ hblock => ?_
    refine .map (leaves_lowerBranches site rest) fun others later _ hothers => ?_
    rw [Holding] at hblock hothers
    simp [Holding, hblock, hothers]

theorem leaves_lowerHandlers (site : Site) : ∀ handlers : List Python.Handler,
    Leaves names site (outlineHandlers site handlers)
      (Holding fun catches => definitionsOf (ownCatches catches)) (lowerHandlers names handlers)
  | [] => .pure rfl
  | ⟨types, name, body, span⟩ :: rest => by
    rw [lowerHandlers, outlineHandlers]
    refine .behind (.moveTo span) fun _ => .behind (composed_lowerCaught names types name).quiet
      fun caught => ?_
    refine .bind (leaves_lowerBlock site body) fun block emitted _ hblock => ?_
    refine .map (leaves_lowerHandlers site rest) fun others later _ hothers => ?_
    rw [Holding] at hblock hothers
    simp [Holding, hblock, hothers]

theorem leaves_lowerCases (site : Site) (tupleSubject : Bool) : ∀ cases : List Python.MatchCase,
      Leaves names site (outlineCases site cases)
        (Holding fun lowered => definitionsOf (ownSections lowered))
        (lowerCases names tupleSubject cases)
  | [] => .pure rfl
  | ⟨pattern, guard, body, span⟩ :: rest => by
    rw [lowerCases, outlineCases]
    refine .behind (.moveTo span) fun _ => ?_
    refine .behind (composed_lowerLabel names tupleSubject pattern guard).quiet fun label => ?_
    refine .bind (leaves_lowerBlock site body) fun block emitted _ hblock => ?_
    refine .map (leaves_lowerCases site tupleSubject rest) fun others later _ hothers => ?_
    rw [Holding] at hblock hothers
    simp [Holding, inside_sectionBody, hblock, hothers]

theorem leaves_lowerMembers (site : Site) (hhome : site.home.isSome = true) :
    ∀ body : List Python.Stmt,
      Leaves names site (outlineBlock site body) (Divides names site body) (lowerMembers names body)
  | [] => .pure ⟨.nil, .nil, .refl _⟩
  | ⟨kind, span⟩ :: rest => by
    have hs := (leaves_lowerKind site kind).located span
    have hr := leaves_lowerMembers site hhome rest
    rw [lowerMembers, lowerStmt, outlineBlock]
    split
    · next hplace =>
      obtain ⟨houtline, hno⟩ := outline_of_nowhere site hplace
      rw [houtline, List.nil_append]
      intro s hstands
      obtain ⟨lowered, after, emitted, hrun, hafter, hanswered, hdivides⟩ := hr s hstands
      refine ⟨lowered, after, emitted, hrun, hafter, hanswered, ?_, ?_, hdivides.all⟩
      · rw [directDefinitions_cons, hno]
        exact hdivides.members
      · rw [innerDefinitions_cons, hno, houtline]
        exact hdivides.initializer
    · next hplace =>
      refine .bind hs fun lowered emitted hanswered hlowered => ?_
      exact .map hr fun others later _ hothers => hothers.add hhome hplace hanswered hlowered

end

end Lowering

end PythonToCSharp
