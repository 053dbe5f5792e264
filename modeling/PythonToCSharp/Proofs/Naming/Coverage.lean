import PythonToCSharp.Proofs.Naming.Declarations
import PythonToCSharp.Proofs.Scope.Ownership

/-!
Which declared names are set aside before a body is lowered, so that generated names stay clear of
them.

The scan of a body sees every target. It does not look into lambdas and comprehensions, nor at what
is evaluated for definitions, `except` clauses and patterns; and for a module it does not look into
classes for `global`. The declared names that are not set aside are exactly those that are bound
only in such places, and only they can have the name of a generated variable.
-/

namespace PythonToCSharp.Python

open Scope (Surroundings)

/-! ## What the scan of expressions misses -/

namespace Expr

/-- Whether the scan stops at the expression. -/
def opensScope : Expr → Bool
  | .lambda _ _ => true
  | .comprehension _ _ _ _ => true
  | _ => false

/-- The second expression is lowered with the first and stands in a lambda or a comprehension. -/
def HoldsInside (e inner : Expr) : Prop :=
  ∃ scope part, e.Holds scope ∧ scope.opensScope = true ∧ part ∈ scope.parts ∧ part.Holds inner

theorem HoldsInside.holds {e inner : Expr} (h : e.HoldsInside inner) : e.Holds inner := by
  obtain ⟨scope, part, hscope, -, hpart, hinner⟩ := h
  exact hscope.trans (.inPart hpart hinner)

theorem mem_children_of_mem_parts {e part : Expr} (h : e.opensScope = false)
    (hpart : part ∈ e.parts) : part ∈ e.children := by
  cases e with
  | lambda params body => cases h
  | comprehension kind element value clauses => cases h
  | compare left comparisons =>
    cases comparisons with
    | nil => cases hpart
    | cons link rest => exact hpart
  | _ => exact hpart

/-- What is lowered with an expression is scanned, or it stands in a lambda or a comprehension. -/
theorem Holds.scanned {e inner : Expr} (h : e.Holds inner) :
    inner ∈ e.subexprs ∨ e.HoldsInside inner := by
  induction h with
  | here e =>
    rw [subexprs_eq]
    exact .inl List.mem_cons_self
  | @inPart e part inner hpart hinner ih =>
    cases hscope : e.opensScope with
    -- the scan stops here, so all below is inside
    | true => exact .inr ⟨e, part, .here e, hscope, hpart, hinner⟩
    | false =>
      rcases ih with hseen | ⟨scope, piece, hholds, hopens, hpiece, hinside⟩
      · rw [e.subexprs_eq]
        have hchild := mem_children_of_mem_parts hscope hpart
        exact .inl (List.mem_cons_of_mem _ (List.mem_flatMap.2 ⟨part, hchild, hseen⟩))
      · exact .inr ⟨scope, piece, .inPart hpart hholds, hopens, hpiece, hinside⟩

end Expr

/-- An assignment expression binds the name where the scan does not look. -/
def Overlooked (around : Surroundings) (body : List Stmt) (name : String) : Prop :=
  ∃ s ∈ ownStatements body, ∃ value,
    (∃ e ∈ s.kind.evaluated around, e.HoldsInside (.named name value)) ∨
      ∃ e ∈ s.kind.attached around, e.Holds (.named name value)

variable {around : Surroundings} {body : List Stmt} {name : String}

theorem Overlooked.assignsInExpr (h : Overlooked around body name) :
    AssignsInExpr around body name := by
  obtain ⟨s, hs, value, ⟨e, he, hinside⟩ | ⟨e, he, hholds⟩⟩ := h
  · exact ⟨s, hs, e, List.mem_append_left _ he, value, hinside.holds⟩
  · exact ⟨s, hs, e, List.mem_append_right _ he, value, hholds⟩

theorem mem_exprs_of_mem_evaluated {kind : StmtKind} {e : Expr} (h : e ∈ kind.evaluated around) :
    e ∈ kind.exprs := by
  cases kind with
  | annAssign target hint value =>
    cases value with
    | none => cases h
    | some value => exact h
  | returnStmt value =>
    simp only [StmtKind.evaluated] at h
    split at h
    · cases h
    · exact h
  | raiseStmt exc cause => exact List.mem_append_left _ h
  | _ => exact h

theorem AssignsTarget.mem_boundIn (h : AssignsTarget body name) : name ∈ boundIn body := by
  obtain ⟨⟨kind, span⟩, hs, target, htarget, hbinds⟩ := h
  have hname := Expr.mem_boundNames_of_binds hbinds
  refine List.mem_flatMap.2 ⟨_, hs, List.mem_append_left _ ?_⟩
  cases kind with
  | assign targets value => exact List.mem_flatMap.2 ⟨target, htarget, hname⟩
  | withBlock items inner isAsync => exact List.mem_flatMap.2 ⟨target, htarget, hname⟩
  | annAssign single hint value =>
    rw [List.mem_singleton.1 htarget] at hname
    exact hname
  | forLoop single iter inner orelse isAsync =>
    rw [List.mem_singleton.1 htarget] at hname
    exact hname
  | _ => cases htarget

theorem AssignsInExpr.mem_boundIn (h : AssignsInExpr around body name) :
    name ∈ boundIn body ∨ Overlooked around body name := by
  obtain ⟨s, hs, e, he, value, hholds⟩ := h
  rcases List.mem_append.1 he with hevaluated | hattached
  · rcases hholds.scanned with hseen | hinside
    · refine .inl (List.mem_flatMap.2 ⟨s, hs, List.mem_append_right _ ?_⟩)
      have hexpr := mem_exprs_of_mem_evaluated hevaluated
      exact List.mem_flatMap.2 ⟨e, hexpr, List.mem_filterMap.2 ⟨_, hseen, rfl⟩⟩
    · exact .inr ⟨s, hs, value, .inl ⟨e, hevaluated, hinside⟩⟩
  · exact .inr ⟨s, hs, value, .inr ⟨e, hattached, hholds⟩⟩

/-- Among the names that are not set aside, a body assigns just the overlooked ones. -/
theorem assigns_iff_overlooked (around : Surroundings) (h : name ∉ boundIn body) :
    AssignsTarget body name ∨ AssignsInExpr around body name ↔ Overlooked around body name := by
  constructor
  · rintro (htarget | hexpr)
    · exact absurd htarget.mem_boundIn h
    · exact hexpr.mem_boundIn.resolve_left h
  · exact fun hmissed => .inr hmissed.assignsInExpr

/-! ## What the scan for global names misses -/

/-- The name is declared global in a class, which may stand in functions. -/
inductive DeclaresInClass (name : String) : List Stmt → Prop where
  | inClass {body : List Stmt} {definition : ClassDef} {span : Span} :
    ⟨.classDef definition, span⟩ ∈ ownStatements body → DeclaresGlobal name definition.body →
      DeclaresInClass name body
  | inFunction {body : List Stmt} {definition : FunctionDef} {span : Span} :
    ⟨.functionDef definition, span⟩ ∈ ownStatements body → DeclaresInClass name definition.body →
      DeclaresInClass name body

theorem DeclaresInClass.declaresGlobal (h : DeclaresInClass name body) :
    DeclaresGlobal name body := by
  induction h with
  | inClass hs h => exact .inClass hs h
  | inFunction hs _ ih => exact .inFunction hs ih

theorem Stmt.mem_reached_self (s : Stmt) : s ∈ s.reached true := by
  unfold Stmt.reached
  split <;> exact List.mem_cons_self

theorem mem_reached_of_mem_block {kind : StmtKind} {span : Span} {block : List Stmt} {s : Stmt}
    (hblock : block ∈ kind.blocks) (hs : s ∈ reachedBlock true block) :
    s ∈ Stmt.reached true ⟨kind, span⟩ := by
  have hall : s ∈ kind.blocks.flatMap (reachedBlock true) := List.mem_flatMap.2 ⟨block, hblock, hs⟩
  cases kind with
  | ifChain branches orelse =>
    rw [Stmt.reached, reachedBranches_eq, reachedOption_eq, ← List.flatMap_append]
    exact List.mem_cons_of_mem _ hall
  | whileLoop test inner orelse =>
    rw [Stmt.reached, reachedOption_eq, ← List.flatMap_cons]
    exact List.mem_cons_of_mem _ hall
  | forLoop target iter inner orelse isAsync =>
    rw [Stmt.reached, reachedOption_eq, ← List.flatMap_cons]
    exact List.mem_cons_of_mem _ hall
  | tryBlock inner handlers orelse finalbody =>
    rw [Stmt.reached, reachedHandlers_eq, reachedOption_eq, reachedOption_eq, ← List.flatMap_append,
      ← List.flatMap_append, ← List.flatMap_cons]
    exact List.mem_cons_of_mem _ hall
  | withBlock items inner isAsync =>
    rw [Stmt.reached]
    exact List.mem_cons_of_mem _ (by simpa [StmtKind.blocks] using hall)
  | matchBlock subject cases =>
    rw [Stmt.reached, reachedCases_eq]
    exact List.mem_cons_of_mem _ hall
  | _ => cases hblock

/-- What is reached from a body's own statements is reached from the body. -/
theorem mem_reachedBlock_of_own {body : List Stmt} {s inner : Stmt} (hs : s ∈ ownStatements body)
    (hinner : inner ∈ s.reached true) : inner ∈ reachedBlock true body := by
  match body with
  | [] => cases hs
  | ⟨kind, span⟩ :: rest =>
    rw [reachedBlock, List.mem_append]
    rcases mem_ownStatements_cons.1 hs with rfl | ⟨block, hblock, hown⟩ | hown
    · exact .inl hinner
    · have hlt := sizeOf_lt_of_mem_blocks hblock
      exact .inl (mem_reached_of_mem_block hblock (mem_reachedBlock_of_own hown hinner))
    · exact .inr (mem_reachedBlock_of_own hown hinner)
termination_by sizeOf body
decreasing_by
  all_goals simp only [List.cons.sizeOf_spec, Stmt.mk.sizeOf_spec]
  all_goals omega

theorem DeclaresGlobal.mem_globalsOf (h : DeclaresGlobal name body) :
    name ∈ globalsOf body ∨ DeclaresInClass name body := by
  induction h with
  | @here body s hs hname =>
    exact .inl (List.mem_flatMap.2 ⟨s, mem_reachedBlock_of_own hs s.mem_reached_self, hname⟩)
  | @inFunction body definition span hs _ ih =>
    -- what is reached from the inner body is reached from the statement that defines the function
    rcases ih with hseen | hclass
    · obtain ⟨inner, hinner, hname⟩ := List.mem_flatMap.1 hseen
      refine .inl (List.mem_flatMap.2 ⟨inner, mem_reachedBlock_of_own hs ?_, hname⟩)
      obtain ⟨fname, params, returns, inside, decorators, isAsync⟩ := definition
      exact List.mem_cons_of_mem _ hinner
    · exact .inr (.inFunction hs hclass)
  | inClass hs hglobal => exact .inr (.inClass hs hglobal)

end PythonToCSharp.Python

namespace PythonToCSharp.Lowering

open CSharp (escapeIdentifier localsAll)
open Layout (printAll)
open Python (DeclaresInClass DeclaresOuter Overlooked)
open Scope (Frame)

/-! ## Declared names and generated names -/

/-- Of the declared names just the missed ones are not set aside, and only they can have a generated
name. -/
structure CoveredApart (Missed : String → Prop)
    (setAside declared generated : List String) : Prop where
  uncovered : ∀ name, name ∈ declared ∧ name ∉ setAside ↔ Missed name ∧ name ∉ setAside
  clash : ∀ name ∈ declared, escapeIdentifier name ∈ generated → Missed name ∧ name ∉ setAside

theorem coveredApart_of_apart {Missed : String → Prop} {setAside declared generated : List String}
    (hmissed : ∀ name, name ∉ setAside → (name ∈ declared ↔ Missed name))
    (hapart : ∀ name ∈ generated, name ∉ setAside ∧ Frame.LooksGenerated name) :
    CoveredApart Missed setAside declared generated := by
  refine ⟨fun name => and_congr_left (hmissed name), ?_⟩
  intro name hdeclared hgenerated
  obtain ⟨hfree, base, hbase, n, heq⟩ := hapart _ hgenerated
  -- an escaped keyword is no generated name, so the variable has the generated name itself
  have hsame : Frame.candidate base n = name := by
    by_contra hne
    exact Frame.candidate_ne_escapeIdentifier hbase hne heq.symm
  rw [heq, hsame] at hfree
  exact ⟨(hmissed name hfree).1 hdeclared, hfree⟩

/-- The declared names of a function, a class or a module that are not set aside are exactly those
that only the overlooked places bind, among them `global` in a class. No other variable in a line of
declarations has the name of a variable that is generated for the same frame. -/
theorem declared_uncovered_iff_overlooked (options : Options) (source : Python.Module)
    (definition : Python.FunctionDef) (type : Python.ClassDef) (span : Python.Span) (s : State) :
    (∃ (function : CSharp.Function) (after : State) (declared : List String),
      lowerStmt options.library ⟨.functionDef definition, span⟩ s =
        .ok ([.function function], after) ∧
      function.vars = declared.map escapeIdentifier ∧
      CoveredApart
        (fun name => Overlooked definition.surroundings definition.body name ∧
          (∀ param ∈ definition.params, param.name ≠ name) ∧ ¬DeclaresOuter definition.body name)
        (Python.boundIn definition.body) declared
        (function.flags ++ localsAll function.body ++ generatedIn definition)) ∧
    (∃ (lowered : CSharp.Class) (lines : Block) (after : State) (declared : List String),
      lowerStmt options.library ⟨.classDef type, span⟩ s = .ok (lines, after) ∧
      (lines = [.type lowered] ∨ lines = [] ∧ lowered ∈ after.types) ∧
      lowered.statics = declared.map escapeIdentifier ∧
      CoveredApart
        (fun name => Overlooked ⟨true, false⟩ type.body name ∧ ¬DeclaresOuter type.body name)
        (Python.boundIn type.body) declared
        (lowered.flags ++ localsAll lowered.initializer ++ generatedInClass type)) ∧
    ∃ (file : CSharp.File) (declared : List String) (diagnostics : List Diagnostic),
      lower options source = .ok ⟨printAll options.indentWidth 0 file.layout, diagnostics⟩ ∧
      file.vars = declared.map escapeIdentifier ∧
      CoveredApart
        (fun name =>
          (Overlooked ⟨false, false⟩ source.body name ∨ DeclaresInClass name source.body) ∧
          ¬DeclaresOuter source.body name)
        (Python.boundIn source.body ++ Python.globalsOf source.body) declared
        (file.flags ++ localsAll file.body ++ generatedInModule source) := by
  refine ⟨?_, ?_, ?_⟩
  · obtain ⟨function, after, hrun, hdeclares⟩ :=
      lowerFunctionDef_run options.library definition span s
    have hapart := generated_emitted_apart rfl
      (base_mem_of_mem_bodyOps _ _) hdeclares.flags hdeclares.locals
    refine ⟨function, after, _, hrun, hdeclares.vars,
      coveredApart_of_apart ?_ fun name hname => (hapart name hname).2⟩
    intro name hfree
    exact (mem_functionFrame definition name).trans
      (and_congr_left' (Python.assigns_iff_overlooked _ hfree))
  · obtain ⟨lowered, lines, after, hrun, hlines, hdeclares⟩ :=
      lowerClassDef_run options.library type span s
    have hapart := generated_emitted_apart rfl
      (base_mem_of_mem_bodyOps _ _) hdeclares.flags hdeclares.locals
    refine ⟨lowered, lines, after, _, hrun, hlines, hdeclares.statics,
      coveredApart_of_apart ?_ fun name hname => (hapart name hname).2⟩
    intro name hfree
    exact (mem_classFrame type name).trans (and_congr_left' (Python.assigns_iff_overlooked _ hfree))
  · obtain ⟨file, after, hrun, hdeclares⟩ := lowerModule_declares options.library source
    have hapart := generated_emitted_apart rfl
      (base_mem_of_mem_moduleOps source) hdeclares.flags hdeclares.locals
    refine ⟨file, _, after.diagnostics, lower_run hrun, hdeclares.vars,
      coveredApart_of_apart ?_ fun name hname => (hapart name hname).2⟩
    intro name hfree
    rw [List.mem_append, not_or] at hfree
    have hassigned := Python.assigns_iff_overlooked ⟨false, false⟩ hfree.1
    have hglobal : Python.DeclaresGlobal name source.body ↔ DeclaresInClass name source.body :=
      ⟨fun h => h.mem_globalsOf.resolve_left hfree.2, fun h => h.declaresGlobal⟩
    rw [mem_moduleFrame, ← or_assoc, hassigned, hglobal]

/-- A class with a method that declares a name like that of a flag global. -/
def sentinelClass : Python.ClassDef :=
  let method : Python.FunctionDef :=
    ⟨"m", [⟨"self", .normal, none, none⟩], none,
      [⟨.globalStmt ["noBreak"], ⟨7, 9⟩⟩, ⟨.assign [.name "noBreak"] (.int "1"), ⟨8, 9⟩⟩], [],
        false⟩
  ⟨"C", [], [⟨.functionDef method, ⟨6, 5⟩⟩], []⟩

/-- A loop that needs a flag, before the class. -/
def sentinelModule : Python.Module :=
  ⟨[⟨.whileLoop (.call (.name "more") []) [⟨.passStmt, ⟨2, 5⟩⟩] (some [⟨.passStmt, ⟨4, 5⟩⟩]),
    ⟨1, 1⟩⟩, ⟨.classDef sentinelClass, ⟨5, 1⟩⟩]⟩

/-- The flag of the loop and the global variable are declared under one name. -/
theorem sentinelModule_clash :
    DeclaresInClass "noBreak" sentinelModule.body ∧
    "noBreak" ∉ Python.boundIn sentinelModule.body ++ Python.globalsOf sentinelModule.body ∧
    (lower {} sentinelModule).toOption =
      some ⟨"PyVariable noBreak;\nbool noBreak = true;\nwhile (more())\n\x7b\n" ++
      "    ;\n\x7d\nif (noBreak)\n\x7b\n    ;\n\x7d\n\nclass C\n\x7b\n    public void m()\n    \x7b\n" ++
      "        noBreak = 1;\n    \x7d\n\x7d\n", []⟩ := by
  refine ⟨?_, by decide, by decide +kernel⟩
  have hclass : ⟨.classDef sentinelClass, ⟨5, 1⟩⟩ ∈ Python.ownStatements sentinelModule.body :=
    List.mem_of_getElem? (i := 3) rfl
  have hglobal : Python.DeclaresGlobal "noBreak" sentinelClass.body :=
    .inFunction List.mem_cons_self (.here List.mem_cons_self List.mem_cons_self)
  exact .inClass hclass hglobal

end PythonToCSharp.Lowering
