import PythonToCSharp.Lowering.Definition
import PythonToCSharp.Proofs.Naming.Expressions

/-!
What the lowering of statements does to the names of the open scopes, in the order in which it
happens.

The effects of a body are those of its own statements (`mem_effectsBlock`). Of these, the recorded
names are the leaves of targets and the assignment expressions among what is lowered; the excluded
ones stand in `global` and `nonlocal`; and the names recorded in the module are those that are
declared global, at any depth.
-/

namespace PythonToCSharp.Python

open Python.Expr (effectsList effectsOption)
open Scope (Effect Surroundings)

/-! ## Heads of definitions -/

/-- The default of a parameter that takes one argument; others have none. -/
def Param.loweredDefault (param : Param) : List Expr :=
  match param.kind with
  | .normal => param.default.toList
  | _ => []

/-- What a function evaluates in the scope around it: its decorators, and the defaults of its
parameters. -/
def FunctionDef.head (inClass : Bool) (definition : FunctionDef) : List Expr :=
  Lowering.otherDecorators inClass definition.decorators ++
    (Lowering.splitReceiver (Lowering.roleOf inClass definition.decorators)
      definition.params).2.flatMap Param.loweredDefault

/-- The base that an argument of a class is. -/
def Arg.base : Arg → List Expr
  | .positional (.name id) => if id == "object" then [] else [.name id]
  | .positional base => [base]
  | _ => []

/-- What a class evaluates in the scope around it: its decorators and its bases. -/
def ClassDef.head (definition : ClassDef) : List Expr :=
  definition.decorators ++ definition.bases.flatMap Arg.base

/-- The surroundings that a function is for the statements of its body. -/
abbrev FunctionDef.surroundings (definition : FunctionDef) : Surroundings :=
  ⟨false, yieldsIn definition.body⟩

/-! ## Effects -/

/-- The effects of an item of a `with`. -/
def WithItem.effects (item : WithItem) : List Effect :=
  match item.target with
  | none => item.context.effects
  | some target => target.bindings ++ (item.context.effects ++ target.effects)

/-- The effects of recording a target with its type hint. -/
def hintedBindings : Expr → Expr → List Effect
  | .name id, hint => [.here (.recordHinted id hint.hintText)]
  | target, _ => target.bindings

/-- The effects of the head of an `except` clause. -/
def caughtEffects : List Expr → Option String → List Effect
  | first :: second :: rest, none => .here (.fresh "ex") :: effectsList (first :: second :: rest)
  | types, _ => effectsList types

/-- The effects of a loop of a `for`, those of its body given. -/
def forEachEffects (target iter : Expr) (body : List Effect) : List Effect :=
  target.bindings ++ (iter.effects ++ (.here (.fresh "_it") :: (target.effects ++ body)))

/-- The effects of a statement without blocks. -/
def StmtKind.simpleEffects (around : Surroundings) : StmtKind → List Effect
  | .expr (.yieldFrom source) => .here (.fresh "_it") :: source.effects
  | .expr value => value.effects
  | .assign targets value => targets.flatMap Expr.bindings ++ (value.effects ++ effectsList targets)
  | .annAssign target hint none => hintedBindings target hint
  | .annAssign target hint (some value) => hintedBindings target hint ++
      (target.effects ++ value.effects)
  | .augAssign target _ value => target.effects ++ value.effects
  | .returnStmt value => if around.isGenerator then [] else effectsOption value
  | .raiseStmt exc _ => effectsOption exc
  | .deleteStmt targets => effectsList targets
  | .assertStmt test msg => test.effects ++ effectsOption msg
  | .globalStmt ids => ids.flatMap fun id => [.here (.exclude id), .inModule id]
  | .nonlocalStmt ids => ids.flatMap fun id => [.here (.exclude id)]
  | _ => []

mutual

/-- The effects of lowering a statement. -/
def Stmt.effects (around : Surroundings) : Stmt → List Effect
  | ⟨kind, _⟩ => kind.effects around

/-- The effects of lowering what a statement says. -/
def StmtKind.effects (around : Surroundings) : StmtKind → List Effect
  | .ifChain branches orelse => effectsBranches around branches ++ effectsOptional around orelse
  | .whileLoop test body none => test.effects ++ effectsBlock around body
  | .whileLoop test body (some orelse) =>
    .here (.fresh "noBreak") ::
      (test.effects ++ (effectsBlock around body ++ effectsBlock around orelse))
  | .forLoop target iter body none _ => forEachEffects target iter (effectsBlock around body)
  | .forLoop target iter body (some orelse) _ =>
    .here (.fresh "loopExecuted") ::
      (forEachEffects target iter (effectsBlock around body) ++ effectsBlock around orelse)
  | .tryBlock body handlers orelse finalbody =>
    .here .enterTry :: (effectsBlock around body ++ (effectsHandlers around handlers ++
      (effectsOptional around finalbody ++ (effectsOptional around orelse ++ [.here .exitTry]))))
  | .withBlock items body _ => items.flatMap WithItem.effects ++ effectsBlock around body
  | .functionDef ⟨name, params, returns, body, decorators, isAsync⟩ =>
    effectsList (FunctionDef.head around.inClass
      ⟨name, params, returns, body, decorators, isAsync⟩) ++
      Effect.passedOn (effectsBlock ⟨false, yieldsIn body⟩ body)
  | .classDef ⟨name, bases, body, decorators⟩ =>
    effectsList (ClassDef.head ⟨name, bases, body, decorators⟩) ++
      Effect.passedOn (effectsBlock ⟨true, false⟩ body)
  | .matchBlock subject cases => subject.effects ++ effectsCases around cases
  | kind => kind.simpleEffects around

/-- The effects of the statements of a block. -/
def effectsBlock (around : Surroundings) : List Stmt → List Effect
  | [] => []
  | s :: rest => s.effects around ++ effectsBlock around rest

/-- The effects of a block that may be missing. -/
def effectsOptional (around : Surroundings) : Option (List Stmt) → List Effect
  | none => []
  | some body => effectsBlock around body

/-- The effects of the branches of an `if`. -/
def effectsBranches (around : Surroundings) : List Branch → List Effect
  | [] => []
  | ⟨test, body⟩ :: rest => test.effects ++
      (effectsBlock around body ++ effectsBranches around rest)

/-- The effects of `except` clauses. -/
def effectsHandlers (around : Surroundings) : List Handler → List Effect
  | [] => []
  | ⟨types, name, body, _⟩ :: rest =>
    caughtEffects types name ++ (effectsBlock around body ++ effectsHandlers around rest)

/-- The effects of `case` clauses, whose guards are lowered before their patterns. -/
def effectsCases (around : Surroundings) : List MatchCase → List Effect
  | [] => []
  | ⟨pattern, guard, body, _⟩ :: rest =>
    effectsOption guard ++
      (effectsList pattern.literals ++ (effectsBlock around body ++ effectsCases around rest))

end

/-! ## What a statement does itself -/

/-- The expressions of a statement that the scan for bound names looks into, as far as they are
lowered: the value of a generator's `return` is dropped, and so are a cause and the target of a mere
declaration. -/
def StmtKind.evaluated (around : Surroundings) : StmtKind → List Expr
  | .annAssign _ _ none => []
  | .returnStmt value => if around.isGenerator then [] else value.toList
  | .raiseStmt exc _ => exc.toList
  | kind => kind.exprs

/-- The expressions that are lowered with a statement and that the scan for bound names does not
look into. -/
def StmtKind.attached (around : Surroundings) : StmtKind → List Expr
  | .functionDef definition => definition.head around.inClass
  | .classDef definition => definition.head
  | .tryBlock _ handlers _ _ => handlers.flatMap Handler.types
  | .matchBlock _ cases => cases.flatMap fun case => case.pattern.literals
  | _ => []

/-- The expressions that are lowered with a statement, its blocks aside. -/
def StmtKind.lowered (around : Surroundings) (kind : StmtKind) : List Expr :=
  kind.evaluated around ++ kind.attached around

/-- The targets of a statement that assigns names. -/
def StmtKind.targets : StmtKind → List Expr
  | .assign targets _ => targets
  | .annAssign target _ _ => [target]
  | .forLoop target _ _ _ _ => [target]
  | .withBlock items _ _ => items.filterMap WithItem.target
  | _ => []

/-- The names that a statement declares to belong to another scope. -/
def StmtKind.outerNames : StmtKind → List String
  | .globalStmt ids => ids
  | .nonlocalStmt ids => ids
  | _ => []

/-- The name that is generated for an `except` clause with several types and no name. -/
def Handler.mark (handler : Handler) : List Effect :=
  if 2 ≤ handler.types.length ∧ handler.name = none then [.here (.fresh "ex")] else []

/-- The names that are generated for a statement itself. -/
def StmtKind.marks : StmtKind → List Effect
  | .expr (.yieldFrom _) => [.here (.fresh "_it")]
  | .whileLoop _ _ (some _) => [.here (.fresh "noBreak")]
  | .forLoop _ _ _ none _ => [.here (.fresh "_it")]
  | .forLoop _ _ _ (some _) _ => [.here (.fresh "loopExecuted"), .here (.fresh "_it")]
  | .tryBlock _ handlers _ _ =>
    .here .enterTry :: .here .exitTry :: handlers.flatMap Handler.mark
  | _ => []

/-- The names that a statement records by its targets. -/
def StmtKind.bindings : StmtKind → List Effect
  | .annAssign target hint _ => hintedBindings target hint
  | kind => kind.targets.flatMap Expr.bindings

/-- The declarations of scope of a statement or in a definition. -/
def StmtKind.declarations : StmtKind → List Effect
  | .globalStmt ids => ids.flatMap fun id => [.here (.exclude id), .inModule id]
  | .nonlocalStmt ids => ids.flatMap fun id => [.here (.exclude id)]
  | .functionDef definition =>
    Effect.passedOn (effectsBlock ⟨false, yieldsIn definition.body⟩ definition.body)
  | .classDef definition => Effect.passedOn (effectsBlock ⟨true, false⟩ definition.body)
  | _ => []

/-- The effects of a statement itself, its blocks aside and in no order. -/
def StmtKind.ownEffects (around : Surroundings) (kind : StmtKind) : List Effect :=
  kind.marks ++ (kind.bindings ++ (effectsList (kind.lowered around) ++ kind.declarations))

section Membership

variable {effect : Effect} (around : Surroundings)

theorem mem_effectsOptional (body : Option (List Stmt)) :
    effect ∈ effectsOptional around body ↔
      ∃ block ∈ body.toList, effect ∈ effectsBlock around block := by
  cases body <;> simp [effectsOptional]

theorem mem_effectsBranches (branches : List Branch) :
    effect ∈ effectsBranches around branches ↔ effect ∈ effectsList (branches.map Branch.test) ∨
      ∃ block ∈ branches.map Branch.body, effect ∈ effectsBlock around block := by
  induction branches with
  | nil => simp [effectsBranches, effectsList]
  | cons branch rest ih =>
    obtain ⟨test, body⟩ := branch
    simp only [effectsBranches, List.mem_append, ih, List.map_cons, effectsList,
      List.exists_mem_cons_iff]
    simp only [or_assoc, or_left_comm]

theorem mem_caughtEffects (handler : Handler) :
    effect ∈ caughtEffects handler.types handler.name ↔
      effect ∈ handler.mark ∨ effect ∈ effectsList handler.types := by
  obtain ⟨types, name, body, span⟩ := handler
  cases types with
  | nil => simp [caughtEffects, Handler.mark]
  | cons first others =>
    cases others with
    | nil => simp [caughtEffects, Handler.mark]
    | cons second others => cases name <;> simp [caughtEffects, Handler.mark]

theorem mem_effectsHandlers (handlers : List Handler) :
    effect ∈ effectsHandlers around handlers ↔
      effect ∈ handlers.flatMap Handler.mark ∨
        effect ∈ effectsList (handlers.flatMap Handler.types) ∨
        ∃ block ∈ handlers.map Handler.body, effect ∈ effectsBlock around block := by
  induction handlers with
  | nil => simp [effectsHandlers, effectsList]
  | cons handler rest ih =>
    have hcaught : effect ∈ caughtEffects handler.types handler.name ↔ _ :=
      mem_caughtEffects handler
    obtain ⟨types, name, body, span⟩ := handler
    simp only [effectsHandlers, List.mem_append, ih, hcaught, List.map_cons, List.flatMap_cons,
      Expr.effectsList_append, List.exists_mem_cons_iff]
    simp only [or_assoc, or_left_comm]

theorem mem_effectsItems (items : List WithItem) :
    effect ∈ items.flatMap WithItem.effects ↔
      effect ∈ (items.filterMap WithItem.target).flatMap Expr.bindings ∨
        effect ∈ effectsList (items.flatMap fun item => item.context :: item.target.toList) := by
  induction items with
  | nil => simp [effectsList]
  | cons item rest ih =>
    obtain ⟨context, target⟩ := item
    cases target <;>
      simp only [List.flatMap_cons, List.mem_append, ih, WithItem.effects, List.filterMap_cons,
        Expr.effectsList_append, effectsList, Option.toList, List.not_mem_nil, or_false] <;>
      simp only [or_assoc, or_left_comm]

theorem mem_effectsCases (cases : List MatchCase) :
    effect ∈ effectsCases around cases ↔
      effect ∈ effectsList (cases.filterMap MatchCase.guard) ∨
        effect ∈ effectsList (cases.flatMap fun case => case.pattern.literals) ∨
          ∃ block ∈ cases.map MatchCase.body, effect ∈ effectsBlock around block := by
  induction cases with
  | nil => simp [effectsCases, effectsList]
  | cons case rest ih =>
    obtain ⟨pattern, guard, body, span⟩ := case
    cases guard <;>
      simp only [effectsCases, List.mem_append, ih, List.map_cons, List.flatMap_cons,
        List.filterMap_cons, Expr.effectsList_append, effectsList, effectsOption,
        List.exists_mem_cons_iff, List.not_mem_nil, false_or] <;>
      simp only [or_assoc, or_left_comm]

section

attribute [local simp] StmtKind.effects StmtKind.simpleEffects StmtKind.marks StmtKind.bindings
  StmtKind.targets
  StmtKind.evaluated StmtKind.attached StmtKind.declarations StmtKind.exprs StmtKind.blocks

/-- An effect of a statement is one of its own or one of its blocks. -/
theorem StmtKind.mem_effects (kind : StmtKind) :
    effect ∈ kind.effects around ↔
      effect ∈ kind.ownEffects around ∨ ∃ block ∈ kind.blocks,
        effect ∈ effectsBlock around block := by
  have hnil : effectsList [] = [] := rfl
  have hone (e : Expr) : effectsList [e] = e.effects := List.append_nil _
  unfold StmtKind.ownEffects StmtKind.lowered
  rw [Expr.effectsList_append]
  simp only [List.mem_append]
  cases kind with
  | expr value => cases value <;> simp [hnil, hone, Expr.effects]
  | assign targets value => simp [hnil, hone, Expr.effectsList_append, or_comm]
  | annAssign target hint value => cases value <;> simp [effectsList]
  | ifChain branches orelse =>
    simp [mem_effectsBranches, mem_effectsOptional, hnil, or_assoc, or_and_right, exists_or]
  | whileLoop test body orelse => cases orelse <;> simp [hnil, hone, or_assoc]
  | forLoop target iter body orelse isAsync =>
    cases orelse <;> simp [forEachEffects, effectsList, or_assoc, or_left_comm]
  | tryBlock body handlers orelse finalbody =>
    simp only [StmtKind.effects, List.mem_cons, List.mem_append, mem_effectsHandlers,
      mem_effectsOptional, StmtKind.marks, StmtKind.bindings, StmtKind.targets, StmtKind.evaluated,
      StmtKind.attached, StmtKind.declarations, StmtKind.exprs, StmtKind.blocks, hnil, or_and_right,
      exists_or, exists_eq_left, List.flatMap_nil, List.not_mem_nil, or_false, false_or]
    -- the two sides hold the same parts in another order
    simp only [or_comm, or_left_comm, or_assoc]
  | withBlock items body isAsync =>
    have hitems : effect ∈ items.flatMap WithItem.effects ↔ _ := mem_effectsItems items
    simp only [StmtKind.effects, List.mem_append, hitems]
    simp [hnil]
  | functionDef definition =>
    obtain ⟨name, params, returns, body, decorators, isAsync⟩ := definition
    simp [hnil]
  | classDef definition =>
    obtain ⟨name, bases, body, decorators⟩ := definition
    simp [hnil]
  | matchBlock subject cases =>
    simp [mem_effectsCases, effectsList, or_assoc]
  | returnStmt value =>
    cases hg : around.isGenerator <;> cases value <;> simp [hg, effectsList, effectsOption]
  | _ => simp [Expr.effectsOption_eq, Expr.effectsList_eq]

end

/-! ## Bodies -/

/-- The blocks of a statement are smaller than it. -/
theorem sizeOf_lt_of_mem_blocks {kind : StmtKind} {block : List Stmt} (h : block ∈ kind.blocks) :
    sizeOf block < sizeOf kind := by
  have hoption (body : Option (List Stmt)) (hb : block ∈ body.toList) :
      sizeOf block < sizeOf body := by
    rw [Option.mem_toList.1 hb, Option.some.sizeOf_spec]
    omega
  cases kind with
  | ifChain branches orelse =>
    simp only [StmtKind.ifChain.sizeOf_spec]
    rcases List.mem_append.1 h with hbranch | horelse
    · obtain ⟨⟨test, body⟩, hmem, rfl⟩ := List.mem_map.1 hbranch
      have := List.sizeOf_lt_of_mem hmem
      simp only [Branch.mk.sizeOf_spec] at this ⊢
      omega
    · have := hoption orelse horelse
      omega
  | whileLoop test body orelse =>
    simp only [StmtKind.whileLoop.sizeOf_spec]
    rcases List.mem_cons.1 h with rfl | horelse
    · omega
    · have := hoption orelse horelse
      omega
  | forLoop target iter body orelse isAsync =>
    simp only [StmtKind.forLoop.sizeOf_spec]
    rcases List.mem_cons.1 h with rfl | horelse
    · omega
    · have := hoption orelse horelse
      omega
  | tryBlock body handlers orelse finalbody =>
    simp only [StmtKind.tryBlock.sizeOf_spec]
    rcases List.mem_cons.1 h with rfl | hrest
    · omega
    · rcases List.mem_append.1 hrest with hhandler | hrest
      · obtain ⟨⟨types, name, body, span⟩, hmem, rfl⟩ := List.mem_map.1 hhandler
        have := List.sizeOf_lt_of_mem hmem
        simp only [Handler.mk.sizeOf_spec] at this ⊢
        omega
      · rcases List.mem_append.1 hrest with horelse | hfinal
        · have := hoption orelse horelse
          omega
        · have := hoption finalbody hfinal
          omega
  | withBlock items body isAsync =>
    rw [List.mem_singleton.1 h]
    simp only [StmtKind.withBlock.sizeOf_spec]
    omega
  | matchBlock subject cases =>
    simp only [StmtKind.matchBlock.sizeOf_spec]
    obtain ⟨⟨pattern, guard, body, span⟩, hmem, rfl⟩ := List.mem_map.1 h
    have := List.sizeOf_lt_of_mem hmem
    simp only [MatchCase.mk.sizeOf_spec] at this ⊢
    omega
  | _ => cases h

theorem mem_ownStatements_cons {kind : StmtKind} {span : Span} {rest : List Stmt} {s : Stmt} :
    s ∈ ownStatements (⟨kind, span⟩ :: rest) ↔
      s = ⟨kind, span⟩ ∨ (∃ block ∈ kind.blocks, s ∈ ownStatements block) ∨
        s ∈ ownStatements rest := by
  simp only [ownStatements, reachedBlock, reached_eq, List.mem_append, List.mem_cons,
    List.mem_flatMap, or_assoc]

/-- The own statements of a body are smaller than it. -/
theorem sizeOf_lt_of_mem_ownStatements {body : List Stmt} {s : Stmt} (h : s ∈ ownStatements body) :
    sizeOf s < sizeOf body := by
  match body with
  | [] => cases h
  | ⟨kind, span⟩ :: rest =>
    rcases mem_ownStatements_cons.1 h with rfl | ⟨block, hblock, hs⟩ | hs
    · simp only [List.cons.sizeOf_spec]
      omega
    · have hlt := sizeOf_lt_of_mem_blocks hblock
      have := sizeOf_lt_of_mem_ownStatements hs
      simp only [List.cons.sizeOf_spec, Stmt.mk.sizeOf_spec]
      omega
    · have := sizeOf_lt_of_mem_ownStatements hs
      simp only [List.cons.sizeOf_spec]
      omega
termination_by sizeOf body
decreasing_by
  all_goals simp only [List.cons.sizeOf_spec, Stmt.mk.sizeOf_spec]
  all_goals omega

theorem sizeOf_function_body_lt {body : List Stmt} {definition : FunctionDef} {span : Span}
    (h : ⟨.functionDef definition, span⟩ ∈ ownStatements body) :
    sizeOf definition.body < sizeOf body := by
  have hlt := sizeOf_lt_of_mem_ownStatements h
  cases definition
  simp only [Stmt.mk.sizeOf_spec, StmtKind.functionDef.sizeOf_spec,
    FunctionDef.mk.sizeOf_spec] at hlt ⊢
  omega

theorem sizeOf_class_body_lt {body : List Stmt} {definition : ClassDef} {span : Span}
    (h : ⟨.classDef definition, span⟩ ∈ ownStatements body) :
    sizeOf definition.body < sizeOf body := by
  have hlt := sizeOf_lt_of_mem_ownStatements h
  cases definition
  simp only [Stmt.mk.sizeOf_spec, StmtKind.classDef.sizeOf_spec, ClassDef.mk.sizeOf_spec] at hlt ⊢
  omega

/-- The effects of a body are those of its own statements. -/
theorem mem_effectsBlock (body : List Stmt) :
    effect ∈ effectsBlock around body ↔ ∃ s ∈ ownStatements body,
      effect ∈ s.kind.ownEffects around := by
  match body with
  | [] => simp [effectsBlock, ownStatements, reachedBlock]
  | ⟨kind, span⟩ :: rest =>
    -- the blocks of the first statement are smaller bodies than the whole
    have hblocks : (∃ block ∈ kind.blocks, effect ∈ effectsBlock around block) ↔
        ∃ block ∈ kind.blocks, ∃ s ∈ ownStatements block, effect ∈ s.kind.ownEffects around := by
      refine exists_congr fun block => and_congr_right fun hblock => ?_
      have := sizeOf_lt_of_mem_blocks hblock
      exact mem_effectsBlock block
    simp only [effectsBlock, Stmt.effects, List.mem_append, StmtKind.mem_effects, hblocks,
      mem_effectsBlock rest, mem_ownStatements_cons, or_and_right, exists_or, exists_eq_left,
      or_assoc]
    grind
termination_by sizeOf body
decreasing_by
  all_goals simp only [List.cons.sizeOf_spec, Stmt.mk.sizeOf_spec]
  all_goals omega

end Membership

/-! ## Which names are concerned -/

/-- A target of the body's own statements binds the name. -/
def AssignsTarget (body : List Stmt) (name : String) : Prop :=
  ∃ s ∈ ownStatements body, ∃ target ∈ s.kind.targets, target.Binds name

/-- An assignment expression that is lowered with the body's own statements binds the name. -/
def AssignsInExpr (around : Surroundings) (body : List Stmt) (name : String) : Prop :=
  ∃ s ∈ ownStatements body, ∃ e ∈ s.kind.lowered around, ∃ value, e.Holds (.named name value)

/-- A `global` or `nonlocal` among the body's own statements has the name. -/
def DeclaresOuter (body : List Stmt) (name : String) : Prop :=
  ∃ s ∈ ownStatements body, name ∈ s.kind.outerNames

/-- The name is declared global in the body, or in a function or class in it, at any depth. -/
inductive DeclaresGlobal (name : String) : List Stmt → Prop where
  | here {body : List Stmt} {s : Stmt} :
    s ∈ ownStatements body → name ∈ s.kind.globalNames → DeclaresGlobal name body
  | inFunction {body : List Stmt} {definition : FunctionDef} {span : Span} :
    ⟨.functionDef definition, span⟩ ∈ ownStatements body → DeclaresGlobal name definition.body →
      DeclaresGlobal name body
  | inClass {body : List Stmt} {definition : ClassDef} {span : Span} :
    ⟨.classDef definition, span⟩ ∈ ownStatements body → DeclaresGlobal name definition.body →
      DeclaresGlobal name body

section Names

variable {effect : Effect} {name : String} (around : Surroundings)

theorem eq_of_mem_marks {kind : StmtKind} (h : effect ∈ kind.marks) :
    (∃ base ∈ Scope.Frame.bases, effect = .here (.fresh base)) ∨ effect = .here .enterTry ∨
      effect = .here .exitTry := by
  unfold StmtKind.marks at h
  split at h
  · exact .inl ⟨"_it", by decide, List.mem_singleton.1 h⟩
  · exact .inl ⟨"noBreak", by decide, List.mem_singleton.1 h⟩
  · exact .inl ⟨"_it", by decide, List.mem_singleton.1 h⟩
  · rcases List.mem_cons.1 h with rfl | hrest
    · exact .inl ⟨"loopExecuted", by decide, rfl⟩
    · exact .inl ⟨"_it", by decide, List.mem_singleton.1 hrest⟩
  · rcases List.mem_cons.1 h with rfl | hrest
    · exact .inr (.inl rfl)
    · rcases List.mem_cons.1 hrest with rfl | hmark
      · exact .inr (.inr rfl)
      · obtain ⟨handler, -, hex⟩ := List.mem_flatMap.1 hmark
        unfold Handler.mark at hex
        split at hex
        · exact .inl ⟨"ex", by decide, List.mem_singleton.1 hex⟩
        · cases hex
  · cases h

theorem mem_bindings_iff {target : Expr} :
    effect ∈ target.bindings ↔ ∃ name, target.Binds name ∧ effect = .here (.record name) := by
  simp [Expr.bindings, Expr.mem_boundNames_iff, eq_comm]

/-- What a statement records by its targets. -/
theorem eq_of_mem_bindings {kind : StmtKind} (h : effect ∈ kind.bindings) :
    ∃ name op, effect = .here op ∧ op.recorded? = some name ∧ op.excluded? = none ∧
      op.base? = none ∧ ∃ target ∈ kind.targets, target.Binds name := by
  have hplain (targets : List Expr) (ht : effect ∈ targets.flatMap Expr.bindings) :
      ∃ name op, effect = .here op ∧ op.recorded? = some name ∧ op.excluded? = none ∧
        op.base? = none ∧ ∃ target ∈ targets, target.Binds name := by
    obtain ⟨target, htarget, hmem⟩ := List.mem_flatMap.1 ht
    obtain ⟨name, hbinds, rfl⟩ := mem_bindings_iff.1 hmem
    exact ⟨name, .record name, rfl, rfl, rfl, rfl, target, htarget, hbinds⟩
  cases kind with
  | annAssign target hint value =>
    cases target with
    | name id =>
      rw [List.mem_singleton.1 h]
      exact ⟨id, .recordHinted id hint.hintText, rfl, rfl, rfl, rfl, _,
        List.mem_singleton_self _, .name⟩
    | _ => exact hplain [_] (by simpa [StmtKind.bindings, hintedBindings] using h)
  | _ => exact hplain _ h

/-- Every leaf of a target is recorded. -/
theorem exists_mem_bindings {kind : StmtKind} {target : Expr} (htarget : target ∈ kind.targets)
    (hbinds : target.Binds name) : ∃ effect ∈ kind.bindings, effect.recorded? = some name := by
  have hplain (targets : List Expr) (ht : target ∈ targets) :
      ∃ effect ∈ targets.flatMap Expr.bindings, effect.recorded? = some name :=
    ⟨_, List.mem_flatMap.2 ⟨target, ht, mem_bindings_iff.2 ⟨name, hbinds, rfl⟩⟩, rfl⟩
  cases kind with
  | annAssign single hint value =>
    obtain rfl := List.mem_singleton.1 htarget
    cases hbinds with
    | name => exact ⟨_, List.mem_singleton_self _, rfl⟩
    | tuple hitem hb => exact ⟨_, mem_bindings_iff.2 ⟨name, .tuple hitem hb, rfl⟩, rfl⟩
    | list hitem hb => exact ⟨_, mem_bindings_iff.2 ⟨name, .list hitem hb, rfl⟩, rfl⟩
    | starred hb => exact ⟨_, mem_bindings_iff.2 ⟨name, .starred hb, rfl⟩, rfl⟩
  | _ => exact hplain _ htarget

theorem eq_of_mem_declarations {kind : StmtKind} (h : effect ∈ kind.declarations) :
    (∃ name ∈ kind.outerNames, effect = .here (.exclude name)) ∨
      ∃ name, effect = .inModule name := by
  have hpassed (effects : List Effect) (hp : effect ∈ Effect.passedOn effects) :
      ∃ name, effect = .inModule name := by
    obtain ⟨name, -, rfl⟩ := List.mem_map.1 hp
    exact ⟨name, rfl⟩
  cases kind with
  | globalStmt ids =>
    obtain ⟨id, hid, hmem⟩ := List.mem_flatMap.1 h
    rcases List.mem_cons.1 hmem with rfl | hlast
    · exact .inl ⟨id, hid, rfl⟩
    · exact .inr ⟨id, List.mem_singleton.1 hlast⟩
  | nonlocalStmt ids =>
    obtain ⟨id, hid, hmem⟩ := List.mem_flatMap.1 h
    exact .inl ⟨id, hid, List.mem_singleton.1 hmem⟩
  | functionDef definition => exact .inr (hpassed _ h)
  | classDef definition => exact .inr (hpassed _ h)
  | _ => cases h

/-- The effects of a statement itself, sorted by what they do. -/
theorem StmtKind.ownEffects_cases {kind : StmtKind} (h : effect ∈ kind.ownEffects around) :
    effect ∈ kind.marks ∨ effect ∈ kind.bindings ∨ (∃ e ∈ kind.lowered around, effect ∈ e.effects) ∨
      effect ∈ kind.declarations := by
  simpa [StmtKind.ownEffects, Expr.effectsList_eq] using h

/-- What a statement records: the leaves of its targets and its assignment expressions. -/
theorem StmtKind.exists_recorded_iff (kind : StmtKind) :
    (∃ effect ∈ kind.ownEffects around, effect.recorded? = some name) ↔
      (∃ target ∈ kind.targets, target.Binds name) ∨
        ∃ e ∈ kind.lowered around, ∃ value, e.Holds (.named name value) := by
  constructor
  · rintro ⟨effect, hmem, hrecorded⟩
    rcases StmtKind.ownEffects_cases around hmem with hmark | hbinding | ⟨e, he,
      heffect⟩ | hdeclaration
    · rcases eq_of_mem_marks hmark with ⟨base, -, rfl⟩ | rfl | rfl <;> cases hrecorded
    · obtain ⟨other, op, rfl, hop, -, -, htarget⟩ := eq_of_mem_bindings hbinding
      obtain rfl : other = name := Option.some.inj (hop.symm.trans hrecorded)
      exact .inl htarget
    · rcases e.eq_of_mem_effects heffect with ⟨other, rfl⟩ | rfl
      · obtain rfl : other = name := Option.some.inj hrecorded
        exact .inr ⟨e, he, e.record_mem_effects.1 heffect⟩
      · cases hrecorded
    · rcases eq_of_mem_declarations hdeclaration with ⟨other, -, rfl⟩ | ⟨other, rfl⟩ <;>
        cases hrecorded
  · rintro (⟨target, htarget, hbinds⟩ | ⟨e, he, hholds⟩)
    · obtain ⟨effect, hmem, hrecorded⟩ := exists_mem_bindings htarget hbinds
      exact ⟨effect, by simp [StmtKind.ownEffects, hmem], hrecorded⟩
    · have hmem : .here (.record name) ∈ effectsList (kind.lowered around) := by
        rw [Expr.effectsList_eq]
        exact List.mem_flatMap.2 ⟨e, he, e.record_mem_effects.2 hholds⟩
      exact ⟨.here (.record name), by simp [StmtKind.ownEffects, hmem], rfl⟩

/-- What a statement excludes. -/
theorem StmtKind.exists_excluded_iff (kind : StmtKind) :
    (∃ effect ∈ kind.ownEffects around, effect.excluded? = some name) ↔ name ∈ kind.outerNames := by
  constructor
  · rintro ⟨effect, hmem, hexcluded⟩
    rcases StmtKind.ownEffects_cases around hmem with hmark | hbinding | ⟨e, -,
      heffect⟩ | hdeclaration
    · rcases eq_of_mem_marks hmark with ⟨base, -, rfl⟩ | rfl | rfl <;> cases hexcluded
    · obtain ⟨other, op, rfl, -, hop, -⟩ := eq_of_mem_bindings hbinding
      cases hop.symm.trans hexcluded
    · rcases e.eq_of_mem_effects heffect with ⟨other, rfl⟩ | rfl <;> cases hexcluded
    · rcases eq_of_mem_declarations hdeclaration with ⟨other, hother, rfl⟩ | ⟨other, rfl⟩
      · obtain rfl : other = name := Option.some.inj hexcluded
        exact hother
      · cases hexcluded
  · intro hname
    have hmem : .here (.exclude name) ∈ kind.declarations := by
      cases kind with
      | globalStmt ids => exact List.mem_flatMap.2 ⟨name, hname, List.mem_cons_self⟩
      | nonlocalStmt ids => exact List.mem_flatMap.2 ⟨name, hname, List.mem_cons_self⟩
      | _ => cases hname
    exact ⟨.here (.exclude name), by simp [StmtKind.ownEffects, hmem], rfl⟩

/-- Names are generated from the known bases only. -/
theorem StmtKind.base_mem {kind : StmtKind} (h : effect ∈ kind.ownEffects around) :
    ∀ base ∈ effect.base?, base ∈ Scope.Frame.bases := by
  intro base hbase
  rcases StmtKind.ownEffects_cases around h with hmark | hbinding | ⟨e, -, heffect⟩ | hdeclaration
  · rcases eq_of_mem_marks hmark with ⟨other, hother, rfl⟩ | rfl | rfl
    · obtain rfl : other = base := Option.some.inj hbase
      exact hother
    · obtain rfl : Scope.Frame.flagBase = base := Option.some.inj hbase
      decide
    · cases hbase
  · obtain ⟨other, op, rfl, -, -, hop, -⟩ := eq_of_mem_bindings hbinding
    cases hop.symm.trans hbase
  · rcases e.eq_of_mem_effects heffect with ⟨other, rfl⟩ | rfl
    · cases hbase
    · obtain rfl : "_t" = base := Option.some.inj hbase
      decide
  · rcases eq_of_mem_declarations hdeclaration with ⟨other, -, rfl⟩ | ⟨other, rfl⟩ <;> cases hbase

/-- What a statement or a definition in it declares global. -/
theorem StmtKind.inModule_mem_iff (kind : StmtKind) :
    .inModule name ∈ kind.ownEffects around ↔ .inModule name ∈ kind.declarations := by
  refine ⟨fun h => ?_, fun h => by simp [StmtKind.ownEffects, h]⟩
  rcases StmtKind.ownEffects_cases around h with hmark | hbinding | ⟨e, -, heffect⟩ | hdeclaration
  · rcases eq_of_mem_marks hmark with ⟨base, -, hno⟩ | hno | hno <;> cases hno
  · obtain ⟨other, op, hno, -⟩ := eq_of_mem_bindings hbinding
    cases hno
  · rcases e.eq_of_mem_effects heffect with ⟨other, hno⟩ | hno <;> cases hno
  · exact hdeclaration

theorem inModule_mem_passedOn {effects : List Effect} :
    .inModule name ∈ Effect.passedOn effects ↔ .inModule name ∈ effects := by
  have hinModule (other : Effect) : other.inModule? = some name ↔ other = .inModule name := by
    cases other <;> simp [Effect.inModule?]
  simp [Effect.passedOn, hinModule]

/-! ### Of a whole body -/

theorem exists_mem_effectsBlock {P : Effect → Prop} (body : List Stmt) :
    (∃ effect ∈ effectsBlock around body, P effect) ↔
      ∃ s ∈ ownStatements body, ∃ effect ∈ s.kind.ownEffects around, P effect := by
  simp only [mem_effectsBlock]
  grind

/-- The recorded names of a body. -/
theorem exists_recorded_effectsBlock (body : List Stmt) :
    (∃ effect ∈ effectsBlock around body, effect.recorded? = some name) ↔
      AssignsTarget body name ∨ AssignsInExpr around body name := by
  simp only [exists_mem_effectsBlock, StmtKind.exists_recorded_iff, AssignsTarget, AssignsInExpr]
  grind

/-- The excluded names of a body. -/
theorem exists_excluded_effectsBlock (body : List Stmt) :
    (∃ effect ∈ effectsBlock around body, effect.excluded? = some name) ↔
      DeclaresOuter body name := by
  simp only [exists_mem_effectsBlock, StmtKind.exists_excluded_iff, DeclaresOuter]

theorem base_mem_of_mem_effectsBlock {body : List Stmt} (h : effect ∈ effectsBlock around body) :
    ∀ base ∈ effect.base?, base ∈ Scope.Frame.bases := by
  obtain ⟨s, -, hs⟩ := (mem_effectsBlock around body).1 h
  exact StmtKind.base_mem around hs

theorem declaresGlobal_of_mem (outer : Surroundings) (body : List Stmt)
    (h : .inModule name ∈ effectsBlock outer body) : DeclaresGlobal name body := by
  -- a definition passes on what its own body declares, and that body is smaller
  obtain ⟨⟨kind, span⟩, hs, hown⟩ := (mem_effectsBlock outer body).1 h
  have hdeclared := (StmtKind.inModule_mem_iff outer kind).1 hown
  cases kind with
  | globalStmt ids =>
    obtain ⟨id, hid, hmem⟩ := List.mem_flatMap.1 hdeclared
    have hname : name = id := by simpa using hmem
    exact .here hs (hname ▸ hid)
  | nonlocalStmt ids =>
    obtain ⟨id, -, hmem⟩ := List.mem_flatMap.1 hdeclared
    cases List.mem_singleton.1 hmem
  | functionDef definition =>
    have := sizeOf_function_body_lt hs
    exact .inFunction hs
      (declaresGlobal_of_mem _ definition.body (inModule_mem_passedOn.1 hdeclared))
  | classDef definition =>
    have := sizeOf_class_body_lt hs
    exact .inClass hs (declaresGlobal_of_mem _ definition.body (inModule_mem_passedOn.1 hdeclared))
  | _ => cases hdeclared
termination_by sizeOf body

theorem mem_of_declaresGlobal {body : List Stmt} (h : DeclaresGlobal name body)
    (outer : Surroundings) : .inModule name ∈ effectsBlock outer body := by
  induction h generalizing outer with
  | @here body s hs hname =>
    obtain ⟨kind, span⟩ := s
    refine (mem_effectsBlock outer _).2 ⟨_, hs, (StmtKind.inModule_mem_iff outer _).2 ?_⟩
    cases kind with
    | globalStmt ids => exact List.mem_flatMap.2 ⟨name, hname, by simp⟩
    | _ => cases hname
  | inFunction hs _ ih | inClass hs _ ih =>
    exact (mem_effectsBlock outer _).2
      ⟨_, hs, (StmtKind.inModule_mem_iff outer _).2 (inModule_mem_passedOn.2 (ih _))⟩

/-- The names that a body records in the module are those that are declared global in it, at any
depth. -/
theorem inModule_mem_effectsBlock (body : List Stmt) :
    .inModule name ∈ effectsBlock around body ↔ DeclaresGlobal name body :=
  ⟨declaresGlobal_of_mem around body, fun h => mem_of_declaresGlobal h around⟩

end Names

end PythonToCSharp.Python
