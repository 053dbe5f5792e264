import PythonToCSharp.Proofs.Lowering.Balance
import PythonToCSharp.Proofs.Naming.Performance

/-!
The declaration lines of functions and modules.

A function declares exactly the leaves of its targets and its assignment expressions, apart from its
parameters and what it declares `global` or `nonlocal`, wherever that stands. A module declares in
addition what is declared global anywhere in it; but what its own statements declare global is kept
out of its line.
-/

namespace PythonToCSharp.Lowering

open CSharp (declarationLine decoratorLines escapeIdentifier flagLine layoutAll
  localsAll optionalLine)
open Layout (printAll)
open Python (AssignsInExpr AssignsTarget DeclaresGlobal DeclaresOuter effectsBlock)
open Scope (Effect Frame Operation Stack Surroundings)

/-! ## Definitions -/

/-- The operations of a body on its own frame. -/
def bodyOps (around : Surroundings) (body : List Python.Stmt) : List Operation :=
  (effectsBlock around body).filterMap Effect.here?

theorem mem_excluded_run_bodyOps (start : Frame) (around : Surroundings) (body : List Python.Stmt)
    (name : String) :
    name ∈ (start.run (bodyOps around body)).excluded ↔ name ∈ start.excluded ∨
      DeclaresOuter body name := by
  rw [Frame.mem_excluded_run, bodyOps, Effect.exists_here_iff]
  exact or_congr_right (Python.exists_excluded_effectsBlock around body)

/-- What a frame holds behind a body: what is assigned there, unless the frame keeps it out or the
body declares it to belong elsewhere. -/
theorem mem_names_run_bodyOps {start : Frame} (hstart : start.names = []) (around : Surroundings)
    (body : List Python.Stmt) (name : String) :
    name ∈ (start.run (bodyOps around body)).names ↔
      (AssignsTarget body name ∨ AssignsInExpr around body name) ∧ name ∉ start.excluded ∧
        ¬DeclaresOuter body name := by
  have hrecorded : (∃ op ∈ bodyOps around body, op.recorded? = some name) ↔
      AssignsTarget body name ∨ AssignsInExpr around body name :=
    (Effect.exists_here_iff _ name).trans (Python.exists_recorded_effectsBlock around body)
  rw [Frame.mem_names_run (Frame.tidy_of_nil hstart), mem_excluded_run_bodyOps, hrecorded, hstart]
  simp [not_or]

theorem base_mem_of_mem_bodyOps (around : Surroundings) (body : List Python.Stmt) :
    ∀ op ∈ bodyOps around body, ∀ base ∈ op.base?, base ∈ Frame.bases := by
  intro op hop base hbase
  obtain ⟨effect, heffect, hhere⟩ := List.mem_filterMap.1 hop
  cases effect with
  | here inner =>
    cases hhere
    exact Python.base_mem_of_mem_effectsBlock around heffect base hbase
  | inModule name => cases hhere

/-- The flags and the loop variables that are emitted for a body, and all names that are generated
for it, are apart from what its frame excludes or sets aside from the start. -/
theorem generated_emitted_apart {start : Frame} (hstart : start.flags = []) {ops : List Operation}
    (hb : ∀ op ∈ ops, ∀ base ∈ op.base?, base ∈ Frame.bases) {flags : List String} {block : Block}
    (hflags : flags = (start.run ops).flags)
    (hlocals : GoodLocals (· ∈ start.handedOut ops) block) :
    ∀ name ∈ flags ++ localsAll block ++ start.handedOut ops,
      name ∉ start.excluded ∧ name ∉ start.reserved ∧ Frame.LooksGenerated name := by
  intro name hname
  simp only [List.mem_append, or_assoc] at hname
  rcases hname with hflag | hlocal | hhanded
  · rw [hflags] at hflag
    exact Frame.generated_apart hstart hb (.inl hflag)
  · exact Frame.generated_apart hstart hb (.inr (hlocals name hlocal))
  · exact Frame.generated_apart hstart hb (.inr hhanded)

/-- The frame of a function behind its body. -/
def functionFrame (definition : Python.FunctionDef) : Frame :=
  (functionStart definition).run (bodyOps definition.surroundings definition.body)

/-- The names that are generated for a function. -/
def generatedIn (definition : Python.FunctionDef) : List String :=
  (functionStart definition).handedOut (bodyOps definition.surroundings definition.body)

/-- A function, wherever it stands, declares what its frame holds in the end. -/
theorem lowerFunctionDef_run (names : LibraryNames) (definition : Python.FunctionDef)
    (span : Python.Span) (s : State) : ∃ function after,
      lowerStmt names ⟨.functionDef definition, span⟩ s = .ok ([.function function], after) ∧
      FunctionDeclares function (valueType names) (functionFrame definition)
        (· ∈ generatedIn definition) := by
  obtain ⟨name, params, returns, body, decorators, isAsync⟩ := definition
  let definition : Python.FunctionDef := ⟨name, params, returns, body, decorators, isAsync⟩
  have hbody := acts_lowerBlock names definition.surroundings (· ∈ generatedIn definition) body
  obtain ⟨function, after, hrun, -, hdeclares⟩ :=
    lowerFunction_performs names hbody { s with span := span } fun _ hn => hn
  refine ⟨function, { after with span := s.span }, ?_, hdeclares⟩
  rw [lowerStmt, lowerKind]
  exact located_eq hrun

/-- What the frame of a function holds in the end. -/
theorem mem_functionFrame (definition : Python.FunctionDef) (name : String) :
    name ∈ (functionFrame definition).names ↔
      (AssignsTarget definition.body name ∨
        AssignsInExpr definition.surroundings definition.body name) ∧
        (∀ param ∈ definition.params, param.name ≠ name) ∧ ¬DeclaresOuter definition.body name := by
  have hparams : name ∉ (functionStart definition).excluded ↔
      ∀ param ∈ definition.params, param.name ≠ name := by
    have hmem : name ∈ (functionStart definition).excluded ↔
        ∃ param ∈ definition.params, param.name = name :=
      mem_paramNames
    rw [hmem]
    simp
  rw [functionFrame, mem_names_run_bodyOps rfl, hparams]

/-- The frame of a class behind its body. -/
def classFrame (definition : Python.ClassDef) : Frame :=
  (classStart definition).run (bodyOps ⟨true, false⟩ definition.body)

/-- The names that are generated for a class. -/
def generatedInClass (definition : Python.ClassDef) : List String :=
  (classStart definition).handedOut (bodyOps ⟨true, false⟩ definition.body)

/-- A class, wherever it stands, declares what its frame holds in the end. -/
theorem lowerClassDef_run (names : LibraryNames) (definition : Python.ClassDef)
    (span : Python.Span) (s : State) :
    ∃ type lines after, lowerStmt names ⟨.classDef definition, span⟩ s = .ok (lines, after) ∧
      (lines = [.type type] ∨ lines = [] ∧ type ∈ after.types) ∧
      ClassDeclares type (classFrame definition) (· ∈ generatedInClass definition) := by
  obtain ⟨name, bases, body, decorators⟩ := definition
  let definition : Python.ClassDef := ⟨name, bases, body, decorators⟩
  have hbody := acts_lowerMembers names ⟨true, false⟩ (· ∈ generatedInClass definition) body
  obtain ⟨type, lines, after, hrun, -, hdeclares, hlines⟩ :=
    lowerClass_performs names hbody { s with span := span } fun _ hn => hn
  refine ⟨type, lines, { after with span := s.span }, ?_, hlines, hdeclares⟩
  rw [lowerStmt, lowerKind]
  exact located_eq hrun

/-- What the frame of a class holds in the end. -/
theorem mem_classFrame (definition : Python.ClassDef) (name : String) :
    name ∈ (classFrame definition).names ↔
      (AssignsTarget definition.body name ∨ AssignsInExpr ⟨true, false⟩ definition.body name) ∧
        ¬DeclaresOuter definition.body name := by
  have hempty : name ∉ (classStart definition).excluded := List.not_mem_nil
  rw [classFrame, mem_names_run_bodyOps rfl]
  simp [hempty]

/-! ## Modules -/

/-- The operations of the statements of a module on its frame. -/
def moduleOps (source : Python.Module) : List Operation :=
  (effectsBlock ⟨false, false⟩ source.body).map Effect.onModule

theorem base_mem_of_mem_moduleOps (source : Python.Module) :
    ∀ op ∈ moduleOps source, ∀ base ∈ op.base?, base ∈ Frame.bases := by
  intro op hop base hbase
  obtain ⟨effect, heffect, rfl⟩ := List.mem_map.1 hop
  cases effect with
  | here inner => exact Python.base_mem_of_mem_effectsBlock ⟨false, false⟩ heffect base hbase
  | inModule name => cases hbase

/-- The frame of a module before its statements are lowered. -/
def moduleFrameStart (source : Python.Module) : Frame :=
  { kind := .module_, reserved := Python.boundIn source.body ++ Python.globalsOf source.body }

/-- The frame of a module behind its statements. -/
def moduleFrame (source : Python.Module) : Frame :=
  (moduleFrameStart source).run (moduleOps source)

/-- The names that are generated for a module. -/
def generatedInModule (source : Python.Module) : List String :=
  (moduleFrameStart source).handedOut (moduleOps source)

/-- The file declares the variables and flags of the frame, and its other variables are good. -/
structure FileDeclares (file : CSharp.File) (type : CSharp.TypeRef) (frame : Frame)
    (Good : String → Prop) : Prop where
  valueType : file.valueType = type
  vars : file.vars = frame.declared
  flags : file.flags = frame.flags
  locals : GoodLocals Good file.body

/-- A module declares what its frame holds in the end. -/
theorem lowerModule_declares (names : LibraryNames) (source : Python.Module) : ∃ file after,
    (lowerModule names source).run {} = .ok (file, after) ∧
      FileDeclares file (valueType names) (moduleFrame source) (· ∈ generatedInModule source) := by
  have hstart : (moduleStart source).scopes.ledger = ⟨moduleFrameStart source, []⟩ := rfl
  have heffects := Stack.performAll_root (moduleFrameStart source)
    (effectsBlock ⟨false, false⟩ source.body)
  obtain ⟨body, after, hrun, hledger, hlocals⟩ := acts_lowerBlock names ⟨false, false⟩
    (· ∈ generatedInModule source) source.body (moduleStart source) rfl (by
      rw [hstart, heffects.2]
      exact fun _ hn => hn)
  rw [hstart, heffects.1] at hledger
  have hroot : after.scopes.root.ledger = moduleFrame source := congrArg Stack.root hledger
  have hnested : after.scopes.nested = [] := List.map_eq_nil_iff.1 (congrArg Stack.nested hledger)
  have hbefore : checkTopLevel "before" {} = .ok ((), {}) := rfl
  have hafter : checkTopLevel "after" after = .ok ((), after) := by
    refine checkTopLevel_run ?_ "after"
    rw [Stack.depth, hnested]
    rfl
  refine ⟨⟨after.usings, valueType names, after.scopes.root.declared, after.scopes.root.flags, body,
    after.types⟩, after, ?_, ?_⟩
  · show lowerModule names source {} = _
    rw [lowerModule, bind_run hbefore, lift_bind_run]
    exact (bind_run hrun).trans ((bind_run hafter).trans rfl)
  · rw [← hroot]
    exact ⟨rfl, rfl, rfl, hlocals⟩

theorem mem_excluded_moduleFrame (source : Python.Module) (name : String) :
    name ∈ (moduleFrame source).excluded ↔ DeclaresOuter source.body name := by
  have hempty : name ∉ (moduleFrameStart source).excluded := List.not_mem_nil
  rw [moduleFrame, Frame.mem_excluded_run, moduleOps, Effect.exists_excluded_onModule,
    Python.exists_excluded_effectsBlock]
  simp [hempty]

/-- What the frame of a module holds in the end. -/
theorem mem_moduleFrame (source : Python.Module) (name : String) :
    name ∈ (moduleFrame source).names ↔
      (AssignsTarget source.body name ∨ AssignsInExpr ⟨false, false⟩ source.body name ∨
        DeclaresGlobal name source.body) ∧ ¬DeclaresOuter source.body name := by
  have hrecorded : (∃ op ∈ moduleOps source, op.recorded? = some name) ↔
      (AssignsTarget source.body name ∨ AssignsInExpr ⟨false, false⟩ source.body name) ∨
        DeclaresGlobal name source.body :=
    (Effect.exists_recorded_onModule _ name).trans
      (or_congr (Python.exists_recorded_effectsBlock _ source.body)
        (Python.inModule_mem_effectsBlock _ source.body))
  have hstart : (moduleFrameStart source).Tidy := Frame.tidy_of_nil rfl
  have hnames := Frame.mem_names_run hstart (moduleOps source) name
  have hempty : name ∉ (moduleFrameStart source).names := List.not_mem_nil
  rw [← moduleFrame, mem_excluded_moduleFrame, hrecorded] at hnames
  rw [hnames]
  simp [hempty, or_assoc]

/-- The line at the head of a module declares, each once, exactly what its targets and its
assignment expressions bind and what is declared global in it at any depth, unless the module's own
statements declare it `global` or `nonlocal`. -/
theorem module_declarations_exact (options : Options) (source : Python.Module) :
    ∃ (file : CSharp.File) (declared : List String) (diagnostics : List Diagnostic),
    lower options source = .ok ⟨printAll options.indentWidth 0 file.layout, diagnostics⟩ ∧
    file.valueType = valueType options.library ∧ file.vars = declared.map escapeIdentifier ∧
      declared.Nodup ∧
    ∀ name, name ∈ declared ↔
      (AssignsTarget source.body name ∨ AssignsInExpr ⟨false, false⟩ source.body name ∨
        DeclaresGlobal name source.body) ∧ ¬DeclaresOuter source.body name := by
  obtain ⟨file, after, hrun, hdeclares⟩ := lowerModule_declares options.library source
  have hstart : (moduleFrameStart source).Tidy := Frame.tidy_of_nil rfl
  exact ⟨file, (moduleFrame source).names, after.diagnostics, lower_run hrun, hdeclares.valueType,
    hdeclares.vars, (hstart.run _).nodup, mem_moduleFrame source⟩

/-- A counter that the module declares global itself, as the function that counts does. -/
def countingModule : Python.Module :=
  let bump : Python.FunctionDef :=
    ⟨"bump", [], none, [⟨.globalStmt ["counter"], ⟨4, 5⟩⟩,
      ⟨.assign [.name "counter"] (.int "1"), ⟨5, 5⟩⟩], [], false⟩
  ⟨[⟨.globalStmt ["counter"], ⟨1, 1⟩⟩, ⟨.assign [.name "counter"] (.int "0"), ⟨2, 1⟩⟩,
    ⟨.functionDef bump, ⟨3, 1⟩⟩]⟩

/-- The module assigns the counter and a function declares it global, and yet no line declares it.
-/
theorem countingModule_undeclared :
    AssignsTarget countingModule.body "counter" ∧
    (∃ definition span, ⟨.functionDef definition, span⟩ ∈ Python.ownStatements countingModule.body ∧
      DeclaresGlobal "counter" definition.body) ∧
    lower {} countingModule =
      .ok ⟨"counter = 0;\nvoid bump()\n\x7b\n    counter = 1;\n\x7d\n", []⟩ := by
  refine ⟨?_, ?_, rfl⟩
  · exact ⟨_, List.mem_cons_of_mem _ List.mem_cons_self, .name "counter", List.mem_cons_self, .name⟩
  · refine ⟨_, _, List.mem_cons_of_mem _ (List.mem_cons_of_mem _ List.mem_cons_self), ?_⟩
    exact .here List.mem_cons_self List.mem_cons_self

end PythonToCSharp.Lowering
