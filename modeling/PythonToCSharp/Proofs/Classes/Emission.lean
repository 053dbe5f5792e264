import PythonToCSharp.Proofs.Classes.Placement
import PythonToCSharp.Proofs.Lowering.Quiet

/-!
The lowering leaves what the outline of the source says.

`Leaves` is said of a step at a site: it succeeds, what it adds to the state is a list of emissions
that answer the marks of the source one by one, and the definitions among them stand in what it
gives. A definition opens a frame of its own. What arises under it passes through, apart from what
stands in its body and, for a class, from the fields, which its own frame takes.
-/

namespace PythonToCSharp.Lowering

open CSharp (definitionsIn definitionsOf ownBranches ownCatches ownOptional ownSections)
open Python (Mark Site fieldMarks outlineBlock outlineBranches outlineCases outlineHandlers
  outlineOptional)
open Scope (Frame Stack)

variable {α β : Type}

/-! ## What a state takes up -/

/-- The state after something is left in it. -/
def State.receive (s : State) : Emission → State
  | .directive text => { s with usings := Scope.insertNew s.usings text }
  | .field attr => { s with scopes := s.scopes.addClassField attr }
  | .finished true type => { s with types := s.types ++ [type] }
  | _ => s

/-- The state after several things are left in it, one after the other. -/
def State.receiveAll (s : State) (emitted : List Emission) : State :=
  emitted.foldl State.receive s

theorem State.receiveAll_append (s : State) (emitted emitted' : List Emission) :
    s.receiveAll (emitted ++ emitted') = (s.receiveAll emitted).receiveAll emitted' :=
  List.foldl_append

/-- What a state says about where a statement stands. -/
def State.spot (s : State) : Scope.Kind × Option String × List String :=
  (s.scopes.current.kind, s.scopes.receiver, s.classNames)

theorem State.spot_face (s : State) : s.face.spot = s.spot := by
  have hkind : s.face.scopes.current = s.scopes.current.face := s.scopes.current_face
  have hreceiver : s.face.scopes.receiver = s.scopes.receiver :=
    Stack.receiverIn_face s.scopes.nested
  simp only [spot, hkind, hreceiver]
  rfl

theorem State.spot_receiveAll (s : State) (emitted : List Emission) :
    (s.receiveAll emitted).spot = s.spot := by
  have hstep (s : State) (one : Emission) : (s.receive one).spot = s.spot := by
    cases one with
    | field attr =>
      have hgrows := s.scopes.grows_addClassField attr
      simp only [receive, spot, hgrows.current.kind, hgrows.receiverEq]
    | finished behind type => cases behind <;> rfl
    | _ => rfl
  induction emitted generalizing s with
  | nil => rfl
  | cons one rest ih => exact (ih (s.receive one)).trans (hstep s one)

/-- The state is one in which a statement at the site is lowered. -/
structure Stands (site : Site) (s : State) : Prop where
  inClass : (s.scopes.current.kind == .class_) = site.home.isSome
  owner : ∀ name ∈ site.home, s.classNames.head? = some name
  receiver : s.scopes.receiver = site.self

theorem Stands.of_spot {site : Site} {s after : State} (h : Stands site s)
    (hspot : after.spot = s.spot) : Stands site after := by
  simp only [State.spot, Prod.mk.injEq] at hspot
  obtain ⟨hkind, hreceiver, hnames⟩ := hspot
  exact ⟨hkind ▸ h.inClass, hnames ▸ h.owner, hreceiver.trans h.receiver⟩

theorem spot_of_face {s after : State} {emitted : List Emission}
    (h : after.face = s.face.receiveAll emitted) : after.spot = s.spot := by
  rw [← after.spot_face, h, State.spot_receiveAll, s.spot_face]

/-! ## Steps for expressions -/

/-- With this receiver, the step leaves exactly this. -/
def Receives (self : Option String) (emitted : List Emission) (step : Render α) : Prop :=
  ∀ s, s.scopes.receiver = self → (step s).2.face = s.face.receiveAll emitted

variable {self : Option String} {emitted emitted' : List Emission}

theorem Quiet.receives {x : Render α} (h : Quiet x) : Receives self [] x :=
  fun s _ => h s

namespace Receives

theorem bind {x : Render α} {f : α → Render β} (hx : Receives self emitted x)
    (hf : ∀ a, Receives self emitted' (f a)) : Receives self (emitted ++ emitted') (x >>= f) := by
  intro s hs
  have hmiddle := hx s hs
  have hspot := spot_of_face hmiddle
  simp only [State.spot, Prod.mk.injEq] at hspot
  rw [State.receiveAll_append, ← hmiddle]
  exact hf (x s).1 (x s).2 (hspot.2.1.trans hs)

theorem behind {x : Render α} {f : α → Render β} (hx : Quiet x)
    (hf : ∀ a, Receives self emitted (f a)) : Receives self emitted (x >>= f) :=
  bind hx.receives hf

theorem before {x : Render α} {f : α → Render β} (hx : Receives self emitted x)
    (hf : ∀ a, Quiet (f a)) : Receives self emitted (x >>= f) := by
  have h := bind hx fun a => (hf a).receives
  rwa [List.append_nil] at h

theorem forM {step : α → Render PUnit} {one : α → List Emission}
    (h : ∀ a, Receives self (one a) (step a))
    (items : List α) : Receives self (items.flatMap one) (items.forM step) := by
  induction items with
  | nil => exact fun _ _ => rfl
  | cons item rest ih => exact bind (h item) fun _ => ih

end Receives

theorem receives_recordSingle (target : Python.Expr) :
    Receives self ((target.fieldThrough self).toList.map .field) (recordSingle target) := by
  intro s hs
  cases target with
  | name id => exact (Quiet.modifyFrame fun frame => frame.face_record id) s
  | «attribute» value attr =>
    cases value with
    | name id =>
      show ((if s.scopes.receiver = some id then _ else _ : Render PUnit) s).2.face =
        s.face.receiveAll ((if self = some id then some attr else none).toList.map .field)
      rw [hs]
      split
      · exact congrArg (fun scopes => { s.face with scopes := scopes })
          (s.scopes.face_addClassField attr)
      · rfl
    | _ => rfl
  | _ => rfl

theorem receives_recordTarget (target : Python.Expr) :
    Receives self ((target.fieldsThrough self).map .field) (recordTarget target) := by
  have h : Receives self _ (target.targets.forM recordSingle) := .forM receives_recordSingle _
  have heq :
      (target.targets.flatMap fun single => (single.fieldThrough self).toList.map Trace.field) =
      ((target.fieldsThrough self).map .field : List Emission) := by
    rw [Python.Expr.fieldsThrough, List.filterMap_eq_flatMap_toList, List.map_flatMap]
  rwa [heq] at h

/-- What assigning targets leaves. -/
def fieldEmissions (self : Option String) (targets : List Python.Expr) : List Emission :=
  (targets.flatMap (Python.Expr.fieldsThrough self)).map .field

theorem receives_recordTargets (targets : List Python.Expr) :
    Receives self (fieldEmissions self targets) (targets.forM recordTarget) := by
  have h : Receives self _ (targets.forM recordTarget) := .forM receives_recordTarget _
  rwa [← List.map_flatMap] at h

theorem fieldEmissions_singleton (target : Python.Expr) :
    fieldEmissions self [target] = (target.fieldsThrough self).map .field := by
  rw [fieldEmissions, List.flatMap_singleton]

/-- Fields are no definitions. -/
theorem standing_fieldEmissions (targets : List Python.Expr) :
    (fieldEmissions self targets).filterMap Trace.standing? = [] := by
  rw [fieldEmissions, List.filterMap_map]
  exact List.filterMap_eq_nil_iff.2 fun _ _ => rfl

theorem receives_lowerAssign (names : LibraryNames) (targets : List Python.Expr)
    (value : Python.Expr) :
    Receives self (fieldEmissions self targets) (lowerAssign names targets value) := by
  refine .before (receives_recordTargets targets) fun _ =>
    .bind (composed_lowerExpr names value).quiet fun _ => ?_
  refine .bind (composed_lowerTargets names targets).quiet fun lowered => ?_
  cases lowered <;> exact .pure _

theorem receives_lowerAnnAssign (names : LibraryNames) (target hint : Python.Expr)
    (value : Option Python.Expr) :
    Receives self (fieldEmissions self [target]) (lowerAnnAssign names target hint value) := by
  have hrecord :
      Receives self ((target.fieldsThrough self).map .field) (recordAnnotated target hint) := by
    cases target with
    | name id => exact (Quiet.modifyFrame fun frame => frame.face_recordHinted id _).receives
    | _ => exact receives_recordTarget _
  rw [fieldEmissions_singleton, lowerAnnAssign_eq]
  refine .before hrecord fun _ => ?_
  cases value with
  | none => exact .pure _
  | some value =>
    exact (Composed.bind (composed_lowerTarget names target) fun _ =>
      .map (composed_lowerExpr names value) _).quiet

theorem receives_lowerResources (names : LibraryNames) (items : List Python.WithItem) :
    Receives self (fieldEmissions self (items.filterMap Python.WithItem.target))
      (lowerResources names items) := by
  induction items with
  | nil => exact fun _ _ => rfl
  | cons item rest ih =>
    obtain ⟨context, target⟩ := item
    cases target with
    | none =>
      refine .behind ?_ fun _ => .before ih fun _ => .pure _
      exact .bind (.pure _) fun _ => .bind (composed_lowerExpr names context).quiet fun _ => .pure _
    | some target =>
      rw [List.filterMap_cons_some (f := Python.WithItem.target) rfl, fieldEmissions,
        List.flatMap_cons, List.map_append]
      refine .bind ?_ fun _ => .before ih fun _ => .pure _
      refine .before (receives_recordTarget target) fun _ => ?_
      exact (Composed.bind (composed_lowerExpr names context) fun _ =>
        .map (composed_lowerTarget names target) _).quiet

theorem receives_addUsings {f : α → String} (entries : List α) :
    Receives self ((entries.map f).map .directive)
      (entries.forM fun entry => addUsing (f entry)) := by
  have hone (entry : α) : Receives self [.directive (f entry)] (addUsing (f entry)) :=
    fun _ _ => rfl
  have h := Receives.forM hone entries
  rwa [← List.map_eq_flatMap, ← Function.comp_def, ← List.map_map] at h

theorem receives_lowerImport (entries : List Python.ImportName) :
    Receives self ((Python.StmtKind.importStmt entries).directives.map .directive)
      (lowerImport entries) :=
  .before (receives_addUsings entries) fun _ => .pure _

theorem receives_lowerImportFrom (path : String) (entries : List Python.ImportName)
    (wildcard : Bool) :
    Receives self ((Python.StmtKind.importFrom path entries wildcard).directives.map .directive)
      (lowerImportFrom path entries wildcard) := by
  have hdirectives : (Python.StmtKind.importFrom path entries wildcard).directives =
      if path.toList.head? = some '.' then [] else if wildcard then ["using static " ++ path ++ ";"]
      else entries.map (memberDirective path) := rfl
  rw [hdirectives]
  unfold lowerImportFrom
  split
  · exact (Composed.bind (.warn _ _) fun _ => .pure _).quiet.receives
  · split
    · exact .before (fun _ _ => rfl) fun _ => .pure _
    · exact .before (receives_addUsings entries) fun _ => .pure _

/-! ## Steps for statements -/

variable {names : LibraryNames} {site : Site} {marks first rest : List Mark}
variable {post : α → List Emission → Prop} {post' : β → List Emission → Prop}
variable {found : α → List CSharp.Stmt} {found' : β → List CSharp.Stmt}

/-- From every state at the site the step succeeds, what it leaves answers the marks, and `post`
holds of what it gives and leaves. -/
def Leaves (names : LibraryNames) (site : Site) (marks : List Mark)
    (post : α → List Emission → Prop) (step : Lower α) : Prop :=
  ∀ s, Stands site s → ∃ a after emitted, step s = .ok (a, after) ∧
    after.face = s.face.receiveAll emitted ∧ Answered names site.home marks emitted ∧ post a emitted

/-- The definitions that stand in place are those found in what the step gives. -/
def Holding (found : α → List CSharp.Stmt) (a : α) (emitted : List Emission) : Prop :=
  found a = emitted.filterMap Trace.standing?

namespace Leaves

theorem pure {a : α} (h : post a []) : Leaves names site [] post (Pure.pure a) :=
  fun s _ => ⟨a, s, [], rfl, rfl, .nil, h⟩

theorem bind {x : Lower α} {f : α → Lower β} (hx : Leaves names site first post x)
    (hf : ∀ a emitted, Answered names site.home first emitted → post a emitted →
      Leaves names site rest (fun b later => post' b (emitted ++ later)) (f a)) :
    Leaves names site (first ++ rest) post' (x >>= f) := by
  intro s hs
  obtain ⟨a, middle, emitted, hrun, hmiddle, hanswered, hpost⟩ := hx s hs
  obtain ⟨b, after, later, hrun', hafter, hanswered', hpost'⟩ :=
    hf a emitted hanswered hpost middle (hs.of_spot (spot_of_face hmiddle))
  refine ⟨b, after, emitted ++ later, (bind_run hrun).trans hrun', ?_,
    hanswered.append hanswered', hpost'⟩
  rw [hafter, hmiddle, State.receiveAll_append]

theorem map {x : Lower α} {f : α → β} (hx : Leaves names site marks post x)
    (hf : ∀ a emitted, Answered names site.home marks emitted → post a emitted →
      post' (f a) emitted) :
    Leaves names site marks post' (do return f (← x)) := by
  intro s hs
  obtain ⟨a, after, emitted, hrun, hafter, hanswered, hpost⟩ := hx s hs
  exact ⟨f a, after, emitted, bind_run hrun, hafter, hanswered, hf a emitted hanswered hpost⟩

/-- A step for an expression comes first. -/
theorem after {x : Render α} {f : α → Lower β} (hx : Receives site.self emitted x)
    (hanswered : Answered names site.home first emitted)
    (hf : ∀ a, Leaves names site rest (fun b later => post' b (emitted ++ later)) (f a)) :
    Leaves names site (first ++ rest) post' (liftM x >>= f) := by
  intro s hs
  have hmiddle := hx s hs.receiver
  obtain ⟨b, after, later, hrun, hafter, hanswered', hpost⟩ :=
    hf (x s).1 (x s).2 (hs.of_spot (spot_of_face hmiddle))
  refine ⟨b, after, emitted ++ later, hrun, ?_, hanswered.append hanswered', hpost⟩
  rw [hafter, hmiddle, State.receiveAll_append]

theorem behind {x : Render α} {f : α → Lower β} (hx : Quiet x)
    (hf : ∀ a, Leaves names site marks post' (f a)) :
    Leaves names site marks post' (liftM x >>= f) :=
  after hx.receives .nil hf

theorem lift {x : Render α} (hx : Receives site.self emitted x)
    (hanswered : Answered names site.home marks emitted)
    (h : ∀ s, post (x s).1 emitted) : Leaves names site marks post (liftM x : Lower α) :=
  fun s hs => ⟨(x s).1, (x s).2, emitted, rfl, hx s hs.receiver, hanswered, h s⟩

/-- A quiet step that gives no definition. -/
theorem quiet {x : Render Block} (hx : Quiet x) (h : ∀ s, definitionsIn (x s).1 = []) :
    Leaves names site [] (Holding definitionsIn) (liftM x : Lower Block) :=
  lift hx.receives .nil h

theorem plain {x : Render Block} (hx : Quiet x) (hp : GivesPlain x) :
    Leaves names site [] (Holding definitionsIn) (liftM x : Lower Block) :=
  quiet hx fun s => CSharp.Pick.definitions.inside_plain (hp s)

theorem located {step : Lower α} (h : Leaves names site marks post step) (span : Python.Span) :
    Leaves names site marks post (located span step) := by
  intro s hs
  obtain ⟨a, middle, emitted, hrun, hmiddle, hanswered, hpost⟩ :=
    h { s with span := span } ⟨hs.inClass, hs.owner, hs.receiver⟩
  exact ⟨a, { middle with span := s.span }, emitted, located_eq hrun, hmiddle, hanswered, hpost⟩

/-- A quiet step comes last. -/
theorem before {x : Lower α} {y : Render Unit} {f : α → β} (hx : Leaves names site marks post x)
    (hy : Quiet y) (hf : ∀ a emitted, post a emitted → post' (f a) emitted) :
    Leaves names site marks post' (do let a ← x; liftM y; return f a) := by
  intro s hs
  obtain ⟨a, middle, emitted, hrun, hmiddle, hanswered, hpost⟩ := hx s hs
  exact ⟨f a, (y middle).2, emitted, bind_run (f := fun a => do liftM y; return f a) hrun,
    (hy middle).trans hmiddle, hanswered, hf a emitted hpost⟩

theorem breakable {step : Lower α} (h : Leaves names site marks post step)
    (target : Scope.BreakTarget) : Leaves names site marks post (breakable target step) :=
  behind (.modifyFrame fun _ => rfl) fun _ => before h (.modifyFrame fun _ => rfl) fun _ _ => id

end Leaves

/-! ## Compound statements -/

section Compound

variable {body orelse : Lower Block} {bodyMarks elseMarks : List Mark}

theorem leaves_lowerWhile {test : Python.Expr}
    (hb : Leaves names site bodyMarks (Holding definitionsIn) body) :
    Leaves names site bodyMarks (Holding definitionsIn) (lowerWhile names test body none) := by
  refine .behind (composed_lowerExpr names test).quiet fun test => ?_
  refine .map (hb.breakable _) fun block emitted _ hblock => ?_
  simpa [Holding] using hblock

theorem leaves_lowerWhileElse {test : Python.Expr}
    (hb : Leaves names site bodyMarks (Holding definitionsIn) body)
    (he : Leaves names site elseMarks (Holding definitionsIn) orelse) :
    Leaves names site (bodyMarks ++ elseMarks) (Holding definitionsIn)
      (lowerWhile names test body (some orelse)) := by
  refine .behind (.fresh _) fun mark => .behind (composed_lowerExpr names test).quiet fun test => ?_
  refine .bind (hb.breakable _) fun block emitted _ hblock => ?_
  refine .map he fun otherwise later _ hotherwise => ?_
  rw [Holding] at hblock hotherwise
  simp [Holding, among_guarded, hblock, hotherwise]

theorem leaves_lowerForEach {isAsync : Bool} {target iter : Python.Expr} {start : Block}
    (hs : definitionsIn start = [])
    (hb : Leaves names site bodyMarks (Holding definitionsIn) body) :
    Leaves names site (fieldMarks site [target] ++ bodyMarks)
      (Holding fun loop => definitionsOf loop.own)
      (lowerForEach names isAsync target iter start body) := by
  have hfields : Receives site.self (fieldEmissions site.self [target]) (recordTarget target) := by
    rw [fieldEmissions_singleton]
    exact receives_recordTarget target
  refine .after hfields (.fields _) fun _ =>
    .behind (composed_lowerExpr names iter).quiet fun iter => ?_
  refine .behind (.fresh _) fun item => .behind (composed_lowerTarget names target).quiet
    fun target => ?_
  refine .map (hb.breakable _) fun block emitted _ hblock => ?_
  rw [Holding] at hblock
  simp [Holding, hs, hblock, standing_fieldEmissions]

theorem leaves_lowerFor {isAsync : Bool} {target iter : Python.Expr}
    (hb : Leaves names site bodyMarks (Holding definitionsIn) body) :
    Leaves names site (fieldMarks site [target] ++ bodyMarks) (Holding definitionsIn)
      (lowerFor names isAsync target iter body none) := by
  refine .map (leaves_lowerForEach rfl hb) fun loop emitted _ hloop => ?_
  simpa [Holding] using hloop

theorem leaves_lowerForElse {isAsync : Bool} {target iter : Python.Expr}
    (hb : Leaves names site bodyMarks (Holding definitionsIn) body)
    (he : Leaves names site elseMarks (Holding definitionsIn) orelse) :
    Leaves names site (fieldMarks site [target] ++ bodyMarks ++ elseMarks) (Holding definitionsIn)
      (lowerFor names isAsync target iter body (some orelse)) := by
  refine .behind (.fresh _) fun mark => ?_
  refine .bind (leaves_lowerForEach rfl hb) fun loop emitted _ hloop => ?_
  refine .map he fun otherwise later _ hotherwise => ?_
  rw [Holding] at hloop hotherwise
  simp [Holding, among_guarded, hloop, hotherwise]

theorem leaves_lowerTry {handlers : Lower (List CSharp.Catch)}
    {otherwise finalbody : Option (Lower Block)}
    {handlerMarks finalMarks : List Mark}
    (hb : Leaves names site bodyMarks (Holding definitionsIn) body)
    (hh : Leaves names site handlerMarks
      (Holding fun catches => definitionsOf (ownCatches catches)) handlers)
    (hf : Leaves names site finalMarks (Holding fun block => definitionsOf (ownOptional block))
      (optionally finalbody))
    (he : Leaves names site elseMarks (Holding fun block => definitionsOf (ownOptional block))
      (optionally otherwise)) :
    Leaves names site (bodyMarks ++ (handlerMarks ++ (finalMarks ++ elseMarks)))
      (Holding definitionsIn) (lowerTry body handlers otherwise finalbody) := by
  refine .behind .enterTry fun flag => .bind hb fun block emitted _ hblock => ?_
  refine .bind hh fun catches emitted' _ hcatches => .bind hf fun cleanup emitted'' _ hcleanup => ?_
  have hlast (last : Option Block) :
      definitionsIn (last.map (guarded (.name flag))).toList =
        definitionsOf (ownOptional last) := by
    cases last with
    | none => rfl
    | some block => simp [among_guarded]
  rw [Holding] at hblock hcatches hcleanup
  refine he.before (.modifyFrame fun _ => rfl) fun last later hlater => ?_
  rw [Holding] at hlater
  simp [Holding, setMark, hblock, hcatches, hcleanup, hlast, hlater]

theorem leaves_lowerMatch {subject : Python.Expr} {sections : Lower (List CSharp.Section)}
    (h : Leaves names site marks
      (Holding fun lowered => definitionsOf (ownSections lowered)) sections) :
    Leaves names site marks (Holding definitionsIn) (lowerMatch names subject sections) := by
  refine .behind (composed_lowerExpr names subject).quiet fun subject => ?_
  refine .map (h.breakable _) fun lowered emitted _ hlowered => ?_
  simpa [Holding] using hlowered

end Compound

end PythonToCSharp.Lowering
