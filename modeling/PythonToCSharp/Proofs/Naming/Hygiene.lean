import PythonToCSharp.Proofs.Naming.Declarations

/-!
Generated names and the names that a function reads from around it.

A generated name is none that the function binds by its parameters or where the scan sees it. What
the function only reads has no part in the choice (`generatedIn_insert_read`). So a variable from
outside is captured by a generated one in some function exactly when it has the name of one: a base,
with or without a number behind it.
-/

namespace PythonToCSharp.Python

open Scope (Effect Frame Surroundings)

/-! ## Reading from outside -/

/-- The names that a clause of a comprehension binds. -/
def Clause.boundNames : Clause → List String
  | .forIn target _ => target.boundNames
  | .onlyIf _ => []

namespace Expr

/-- The names that a lambda or a comprehension binds for its parts. -/
def scopeNames : Expr → List String
  | .lambda params _ => params.map Param.name
  | .comprehension _ _ _ clauses => clauses.flatMap Clause.boundNames
  | _ => []

/-- The expression reads the name from the scope that it stands in. -/
inductive ReadsFree (name : String) : Expr → Prop where
  | here : ReadsFree name (.name name)
  | inPart {e part : Expr} :
      part ∈ e.parts → name ∉ e.scopeNames → ReadsFree name part → ReadsFree name e
  /-- What a comprehension goes through first is evaluated outside. -/
  | inSource {kind : ComprehensionKind} {element target iter : Expr} {value : Option Expr}
      {rest : List Clause} :
    ReadsFree name iter → ReadsFree name
      (.comprehension kind element value (.forIn target iter :: rest))

end Expr

/-- The function has a parameter of the name, or its own statements bind it. -/
def FunctionDef.BindsName (definition : FunctionDef) (name : String) : Prop :=
  (∃ param ∈ definition.params, param.name = name) ∨ name ∈ boundIn definition.body ∨
    AssignsInExpr definition.surroundings definition.body name

/-- The function, or a function in it, reads the name from outside. -/
inductive ReadsOuter (name : String) : FunctionDef → Prop where
  | here {definition : FunctionDef} {s : Stmt} {e : Expr} :
    s ∈ ownStatements definition.body → e ∈ s.kind.lowered definition.surroundings →
      e.ReadsFree name → ¬definition.BindsName name → ReadsOuter name definition
  | inFunction {definition inner : FunctionDef} {span : Span} :
    ⟨.functionDef inner, span⟩ ∈ ownStatements definition.body → ReadsOuter name inner →
      ¬definition.BindsName name → ReadsOuter name definition

/-! ## Reading has no effect on names -/

/-- A statement that reads a name. -/
def readOf (name : String) (span : Span) : Stmt :=
  ⟨.expr (.name name), span⟩

section InsertRead

variable (front back : List Stmt) (name : String) (span : Span)

theorem ownStatements_append :
    ownStatements (front ++ back) = ownStatements front ++ ownStatements back := by
  simp [ownStatements, reachedBlock_eq]

theorem ownStatements_insert_read : ownStatements (front ++ readOf name span :: back) =
    ownStatements front ++ readOf name span :: ownStatements back :=
  ownStatements_append front (readOf name span :: back)

theorem boundIn_insert_read :
    boundIn (front ++ readOf name span :: back) = boundIn (front ++ back) := by
  have hread : (readOf name span).kind.boundNames = [] := rfl
  rw [boundIn, ownStatements_insert_read, List.flatMap_append, List.flatMap_cons, hread,
    List.nil_append, ← List.flatMap_append, ← ownStatements_append, boundIn]

theorem yieldsIn_insert_read :
    yieldsIn (front ++ readOf name span :: back) = yieldsIn (front ++ back) := by
  have hread : (readOf name span).kind.yields = false := rfl
  rw [yieldsIn, ownStatements_insert_read, List.any_append, List.any_cons, hread, Bool.false_or,
    ← List.any_append, ← ownStatements_append, yieldsIn]

theorem effectsBlock_insert_read (around : Surroundings) :
    effectsBlock around (front ++ readOf name span :: back) =
      effectsBlock around (front ++ back) := by
  induction front with
  | nil => rfl
  | cons s rest ih => simp only [List.cons_append, effectsBlock, ih]

end InsertRead

theorem effectsBlock_single (around : Surroundings) (kind : StmtKind) (span : Span) :
    effectsBlock around [⟨kind, span⟩] = kind.effects around :=
  List.append_nil _

/-! ## Statements that need a name -/

/-- A statement that binds nothing and gets the first free name of the base in a frame without
generated names. -/
structure Needs (base : String) (kind : StmtKind) : Prop where
  binds (span : Span) : boundIn [⟨kind, span⟩] = []
  records (around : Surroundings) : ∀ effect ∈ kind.effects around, effect.recorded? = none
  answers (around : Surroundings) (frame : Frame) (hcounts : frame.counts = [])
    (hflags : frame.flags = []) : Frame.candidate base (Frame.firstFree frame.taken base 0) ∈
      frame.handedOut ((kind.effects around).filterMap Effect.here?)

theorem needs_of_fresh {base : String} {kind : StmtKind} (rest : List Effect)
    (hbinds : ∀ span, boundIn [⟨kind, span⟩] = [])
    (heffects : ∀ around, kind.effects around = .here (.fresh base) :: rest)
    (hrest : ∀ effect ∈ rest, effect.recorded? = none) : Needs base kind where
  binds := hbinds
  records around effect heffect := by
    rw [heffects, List.mem_cons] at heffect
    rcases heffect with rfl | hlater
    · rfl
    · exact hrest effect hlater
  answers around frame hcounts _ := by
    have hcount : frame.count base = 0 := by simp [Frame.count, hcounts]
    rw [heffects, ← hcount]
    exact List.mem_cons_self

/-- A `try` with a clause for two types needs a flag and a name for the exception. -/
def tryOfTwo : StmtKind :=
  .tryBlock [] [⟨[.name "A", .name "B"], none, [], Span.first⟩] none none

theorem handedOut_tryOfTwo (around : Surroundings) {frame : Frame} (hcounts : frame.counts = [])
    (hflags : frame.flags = []) :
    frame.handedOut ((tryOfTwo.effects around).filterMap Effect.here?) =
      [Frame.candidate Frame.flagBase (Frame.firstFree frame.taken Frame.flagBase 0),
        Frame.candidate "ex" (Frame.firstFree frame.taken "ex" 0)] := by
  have heffects :
      (tryOfTwo.effects around).filterMap Effect.here? = [.enterTry, .fresh "ex", .exitTry] := rfl
  have hlookup (n : Nat) : [(Frame.flagBase, n)].lookup "ex" = none := rfl
  simp [heffects, Frame.handedOut, Frame.answer?, Frame.apply, Frame.enterTry, Frame.fresh,
    Frame.count, hcounts, hflags, Frame.taken, Frame.names, hlookup]

theorem needs_tryOfTwo {base : String} (hb : base = Frame.flagBase ∨ base = "ex") :
    Needs base tryOfTwo where
  binds _ := rfl
  records around effect heffect := by
    have heffects :
        tryOfTwo.effects around = [.here .enterTry, .here (.fresh "ex"), .here .exitTry] := rfl
    simp only [heffects, List.mem_cons, List.not_mem_nil, or_false] at heffect
    rcases heffect with rfl | rfl | rfl <;> rfl
  answers around frame hcounts hflags := by
    rw [handedOut_tryOfTwo around hcounts hflags]
    rcases hb with rfl | rfl <;> simp

/-- Names of every base are generated for some statement. -/
theorem exists_needs {base : String} (hb : base ∈ Frame.bases) : ∃ kind, Needs base kind := by
  simp only [Frame.bases, List.mem_cons, List.not_mem_nil, or_false] at hb
  -- a loop with `else` of each kind, a delegating `yield`, a comprehension over pairs, and twice
  -- the `try`
  rcases hb with rfl | rfl | rfl | rfl | rfl | rfl
  · let loop : StmtKind := .whileLoop (.name "more") [] (some [])
    exact ⟨loop, needs_of_fresh [] (fun _ => rfl) (fun _ => rfl) (by decide)⟩
  · let loop :
      StmtKind := .forLoop (.attribute (.name "box") "item") (.name "items") [] (some []) false
    exact ⟨loop, needs_of_fresh [.here (.fresh "_it")] (fun _ => rfl) (fun _ => rfl) (by decide)⟩
  · exact ⟨.expr (.yieldFrom (.name "items")),
      needs_of_fresh [] (fun _ => rfl) (fun _ => rfl) (by decide)⟩
  · let clause : Clause := .forIn (.tuple [.name "left", .name "right"]) (.name "pairs")
    exact ⟨.expr (.comprehension .list (.name "left") none [clause]),
      needs_of_fresh [] (fun _ => rfl) (fun _ => rfl) (by decide)⟩
  · exact ⟨tryOfTwo, needs_tryOfTwo (.inr rfl)⟩
  · exact ⟨tryOfTwo, needs_tryOfTwo (.inl rfl)⟩

end PythonToCSharp.Python

namespace PythonToCSharp.Lowering

open CSharp (localsAll)
open Python (ReadsOuter readOf)
open Scope (Frame)

/-- What a function reads has no part in the choice of the names that are generated for it. -/
theorem generatedIn_insert_read (definition : Python.FunctionDef) (front back : List Python.Stmt)
    (name : String) (span : Python.Span) :
    generatedIn { definition with body := front ++ readOf name span :: back } =
      generatedIn { definition with body := front ++ back } := by
  simp only [generatedIn, functionStart, bodyOps, Python.FunctionDef.surroundings,
    Python.boundIn_insert_read, Python.yieldsIn_insert_read, Python.effectsBlock_insert_read]

/-- Parameters with the first candidates of a base as names. -/
def candidateParams (base : String) (n : Nat) : List Python.Param :=
  (List.range n).map fun i => ⟨Frame.candidate base i, .normal, none, none⟩

theorem exists_candidateParam {base name : String} {n : Nat} :
    (∃ param ∈ candidateParams base n, param.name = name) ↔
      ∃ i < n, Frame.candidate base i = name := by
  simp [candidateParams]

theorem not_exists_candidateParam (base : String) (n : Nat) :
    ¬∃ param ∈ candidateParams base n, param.name = Frame.candidate base n := by
  rw [exists_candidateParam]
  rintro ⟨i, hi, heq⟩
  exact Nat.ne_of_lt hi (Frame.candidate_injective heq)

/-- A function with these parameters and one statement. -/
def needing (base : String) (n : Nat) (kind : Python.StmtKind) : Python.FunctionDef :=
  ⟨"f", candidateParams base n, none, [⟨kind, Python.Span.first⟩], [], false⟩

/-- The function with a read of the next candidate behind the statement. -/
def capturing (base : String) (n : Nat) (kind : Python.StmtKind) : Python.FunctionDef :=
  { needing base n kind with
    body := [⟨kind, Python.Span.first⟩] ++ [readOf (Frame.candidate base n) Python.Span.first] }

section Capture

variable {base : String} {n : Nat} {kind : Python.StmtKind}

theorem candidate_mem_generatedIn (h : Python.Needs base kind) :
    Frame.candidate base n ∈ generatedIn (capturing base n kind) := by
  let start := functionStart (needing base n kind)
  -- the parameters are all that the frame keeps clear of, and they leave the next candidate free
  have htaken (name : String) :
      name ∈ start.taken ↔ ∃ param ∈ candidateParams base n, param.name = name := by
    have hbound : Python.boundIn (needing base n kind).body = [] := h.binds Python.Span.first
    have hexcluded : name ∈ start.excluded ↔ ∃ param ∈ candidateParams base n, param.name = name :=
      mem_paramNames
    rw [← hexcluded]
    simp [start, Frame.taken, Frame.names, functionStart, hbound]
  have hfirst : Frame.firstFree start.taken base 0 = n := by
    refine Frame.firstFree_eq (fun i hi => (htaken _).2 (exists_candidateParam.2 ⟨i, hi, rfl⟩)) ?_
    rw [htaken]
    exact not_exists_candidateParam base n
  have hanswer := h.answers (needing base n kind).surroundings start rfl rfl
  rw [hfirst, ← Python.effectsBlock_single _ kind Python.Span.first] at hanswer
  rw [capturing, generatedIn_insert_read]
  exact hanswer

theorem readsOuter_capturing (h : Python.Needs base kind) :
    ReadsOuter (Frame.candidate base n) (capturing base n kind) := by
  have hread : readOf (Frame.candidate base n) Python.Span.first ∈
      Python.ownStatements (capturing base n kind).body := by
    rw [capturing, Python.ownStatements_insert_read]
    exact List.mem_append_right _ List.mem_cons_self
  refine .here hread List.mem_cons_self .here ?_
  rintro (hparam | hbound | hexpr)
  · exact not_exists_candidateParam base n hparam
  · rw [capturing, Python.boundIn_insert_read, List.append_nil, h.binds] at hbound
    exact List.not_mem_nil hbound
  · obtain ⟨effect, heffect, hrecorded⟩ := (Python.exists_recorded_effectsBlock _ _).2 (.inr hexpr)
    rw [capturing, Python.effectsBlock_insert_read, List.append_nil,
      Python.effectsBlock_single] at heffect
    rw [h.records _ effect heffect] at hrecorded
    cases hrecorded

end Capture

/-- The names that are generated for a function are none that its parameters or its own statements
bind, as far as the scan sees them, and what it reads has no part in their choice. So a name is safe
to read from outside in every function exactly if it is not of the form of generated names: a base,
with or without a number behind it. -/
theorem reads_hygienic_iff (names : LibraryNames) (definition : Python.FunctionDef)
    (span : Python.Span) (s : State) (name : String) :
    (∃ (function : CSharp.Function) (after : State),
      lowerStmt names ⟨.functionDef definition, span⟩ s = .ok ([.function function], after) ∧
      ∀ generated ∈ function.flags ++ localsAll function.body ++ generatedIn definition,
        (∀ param ∈ definition.params, param.name ≠ generated) ∧
          generated ∉ Python.boundIn definition.body ∧ Frame.LooksGenerated generated) ∧
    (∀ front back place,
      generatedIn { definition with body := front ++ readOf name place :: back } =
      generatedIn { definition with body := front ++ back }) ∧
    ((∀ reader, ReadsOuter name reader → name ∉ generatedIn reader) ↔
      ¬Frame.LooksGenerated name) := by
  refine ⟨?_, fun front back => generatedIn_insert_read definition front back name, ?_⟩
  · obtain ⟨function, after, hrun, hdeclares⟩ := lowerFunctionDef_run names definition span s
    have hapart := generated_emitted_apart rfl
      (base_mem_of_mem_bodyOps _ _) hdeclares.flags hdeclares.locals
    refine ⟨function, after, hrun, ?_⟩
    intro generated hgenerated
    obtain ⟨hexcluded, hreserved, hlooks⟩ := hapart generated hgenerated
    refine ⟨?_, hreserved, hlooks⟩
    intro param hparam heq
    exact hexcluded (mem_paramNames.2 ⟨param, hparam, heq⟩)
  · constructor
    · rintro hsafe ⟨base, hbase, n, rfl⟩
      obtain ⟨kind, hneeds⟩ := Python.exists_needs hbase
      exact hsafe (capturing base n kind) (readsOuter_capturing hneeds)
        (candidate_mem_generatedIn hneeds)
    · intro hplain reader _ hgenerated
      exact hplain (Frame.generated_apart rfl (base_mem_of_mem_bodyOps _ _) (.inr hgenerated)).2.2

/-- A step that reads a variable with the name of a flag. -/
def searchStep : Python.Stmt :=
  ⟨.assign [.name "xs"] (.call (.name "step") [.positional (.name "noBreak")]), ⟨4, 9⟩⟩

/-- A function with a loop that does the step and needs a flag. -/
def searchFunction : Python.FunctionDef :=
  ⟨"f", [⟨"xs", .normal, none, none⟩], none,
    [⟨.whileLoop (.name "xs") [searchStep] (some [⟨.passStmt, ⟨6, 9⟩⟩]), ⟨3, 5⟩⟩], [], false⟩

/-- The variable is one of the module. -/
def searchModule : Python.Module :=
  ⟨[⟨.assign [.name "noBreak"] (.int "1"), ⟨1, 1⟩⟩, ⟨.functionDef searchFunction, ⟨2, 1⟩⟩]⟩

/-- The function reads its own flag in place of the variable of the module. -/
theorem searchModule_captured :
    ReadsOuter "noBreak" searchFunction ∧ "noBreak" ∈ generatedIn searchFunction ∧
    (lower {} searchModule).toOption =
      some ⟨"PyVariable noBreak;\nnoBreak = 1;\nvoid f(PyVariable xs)\n\x7b\n" ++
      "    bool noBreak = true;\n    while (xs)\n    \x7b\n        xs = step(noBreak);\n    \x7d\n" ++
      "    if (noBreak)\n    \x7b\n        ;\n    \x7d\n\x7d\n", []⟩ := by
  refine ⟨?_, by decide, by decide +kernel⟩
  have hstep : searchStep ∈ Python.ownStatements searchFunction.body :=
    List.mem_of_getElem? (i := 1) rfl
  let call : Python.Expr := .call (.name "step") [.positional (.name "noBreak")]
  have hcall : call ∈ searchStep.kind.lowered searchFunction.surroundings :=
    List.mem_cons_of_mem _ List.mem_cons_self
  have hreads : call.ReadsFree "noBreak" :=
    .inPart (List.mem_cons_of_mem _ List.mem_cons_self) List.not_mem_nil .here
  refine .here hstep hcall hreads ?_
  rintro (hparam | hbound | hexpr)
  · revert hparam
    decide
  · revert hbound
    decide
  · -- an assignment expression would record the name
    have hrecorded := (Python.exists_recorded_effectsBlock _ _).2 (.inr hexpr)
    revert hrecorded
    decide

end PythonToCSharp.Lowering
