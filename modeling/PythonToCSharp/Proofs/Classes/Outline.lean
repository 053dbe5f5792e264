import PythonToCSharp.Proofs.Naming.Statements

/-!
What the lowering of a body leaves besides plain lines, in the order in which it does: using
directives, fields of the class around, definitions that stand in place, and finished classes.

A definition keeps what stands in its own body. Out of a function come directives, fields and
classes; out of a class come directives and classes only. Up to order, the outline of a body is made
of what its own statements leave (`outlineBlock_perm`): the cleanup of a `try` comes before its
`else`.
-/

namespace PythonToCSharp

/-- What is left by the lowering of a body. The definitions and the classes are those of the source
or what they become. -/
inductive Trace (δ τ : Type) where
  /-- A using directive is asked for. -/
  | directive (text : String)
  /-- An attribute is assigned through the name of the instance. -/
  | field (attr : String)
  /-- A definition stands in place. -/
  | standing (definition : δ)
  /-- A class is finished, and stands in place or behind the top level. -/
  | finished (behind : Bool) (type : τ)

namespace Trace

variable {δ τ : Type}

/-- The directive that is asked for. -/
def directive? : Trace δ τ → Option String
  | .directive text => some text
  | _ => none

/-- The attribute that is assigned. -/
def field? : Trace δ τ → Option String
  | .field attr => some attr
  | _ => none

/-- The definition that stands in place. -/
def standing? : Trace δ τ → Option δ
  | .standing definition => some definition
  | _ => none

/-- The class that is finished. -/
def finished? : Trace δ τ → Option τ
  | .finished _ type => some type
  | _ => none

/-- The class that is to stand behind the top level. -/
def behind? : Trace δ τ → Option τ
  | .finished true type => some type
  | _ => none

/-- Whether it is left outside of the definition in whose body it arises. The fields that arise in
the body of a class belong to that class. -/
def leaves (ofClass : Bool) : Trace δ τ → Bool
  | .standing _ => false
  | .field _ => !ofClass
  | _ => true

/-- What a class leaves when it is finished. -/
def ofClass (inClass : Bool) (definition : δ) (type : τ) : List (Trace δ τ) :=
  if inClass then [.finished false type, .standing definition] else [.finished true type]

end Trace

namespace Python

open Lowering (importDirective memberDirective roleOf splitReceiver)

/-! ## Where statements stand -/

/-- Where a statement stands. -/
structure Site where
  /-- The class that is the innermost definition around it, if that is one. -/
  home : Option String
  /-- The name that stands for the instance. -/
  self : Option String

/-- The name that a function at a site gives to the instance. -/
def FunctionDef.receiverAt (site : Site) (definition : FunctionDef) : Option String :=
  (splitReceiver (roleOf site.home.isSome definition.decorators) definition.params).1

/-- The site of the statements of a function; one inside a method still sees the instance of that.
-/
def FunctionDef.site (outer : Site) (definition : FunctionDef) : Site :=
  ⟨none, (definition.receiverAt outer).or outer.self⟩

/-- The site of the statements of a class, which hides the instance of a method around it. -/
def ClassDef.site (definition : ClassDef) : Site :=
  ⟨some definition.name, none⟩

/-! ## Outlines -/

/-- The attribute that a single target assigns through the name of the instance. -/
def Expr.fieldThrough (self : Option String) : Expr → Option String
  | .attribute (.name id) attr => if self = some id then some attr else Option.none
  | _ => Option.none

/-- The attributes that a target assigns through the name of the instance. -/
def Expr.fieldsThrough (self : Option String) (target : Expr) : List String :=
  target.targets.filterMap (fieldThrough self)

/-- The using directives that a statement asks for. -/
def StmtKind.directives : StmtKind → List String
  | .importStmt entries => entries.map importDirective
  | .importFrom path entries wildcard =>
    if path.toList.head? = some '.' then []
    else if wildcard then ["using static " ++ path ++ ";"]
    else entries.map (memberDirective path)
  | _ => []

/-- What the lowering of source leaves. -/
abbrev Mark := Trace StmtKind ClassDef

/-- What assigning targets leaves. -/
def fieldMarks (site : Site) (targets : List Expr) : List Mark :=
  (targets.flatMap (Expr.fieldsThrough site.self)).map .field

/-- What a statement other than a definition leaves itself. -/
def StmtKind.plainMarks (site : Site) (kind : StmtKind) : List Mark :=
  fieldMarks site kind.targets ++ kind.directives.map .directive

mutual

/-- What the lowering of a statement leaves. -/
def StmtKind.outline (site : Site) : StmtKind → List Mark
  | .ifChain branches orelse => outlineBranches site branches ++ outlineOptional site orelse
  | .whileLoop _ body orelse => outlineBlock site body ++ outlineOptional site orelse
  | .forLoop target _ body orelse _ =>
    fieldMarks site [target] ++ (outlineBlock site body ++ outlineOptional site orelse)
  | .tryBlock body handlers orelse finalbody =>
    outlineBlock site body ++ (outlineHandlers site handlers ++
      (outlineOptional site finalbody ++ outlineOptional site orelse))
  | .withBlock items body _ => fieldMarks site (items.filterMap WithItem.target) ++
      outlineBlock site body
  | .functionDef ⟨name, params, returns, body, decorators, isAsync⟩ =>
    (outlineBlock (FunctionDef.site site ⟨name, params, returns, body, decorators, isAsync⟩)
        body).filter (Trace.leaves false) ++
      [.standing (.functionDef ⟨name, params, returns, body, decorators, isAsync⟩)]
  | .classDef ⟨name, bases, body, decorators⟩ =>
    (outlineBlock (ClassDef.site ⟨name, bases, body, decorators⟩) body).filter
      (Trace.leaves true) ++
      Trace.ofClass site.home.isSome (.classDef ⟨name, bases, body, decorators⟩)
        ⟨name, bases, body, decorators⟩
  | .matchBlock _ cases => outlineCases site cases
  | kind => kind.plainMarks site

/-- What the lowering of the statements of a block leaves. -/
def outlineBlock (site : Site) : List Stmt → List Mark
  | [] => []
  | ⟨kind, _⟩ :: rest => kind.outline site ++ outlineBlock site rest

/-- What the lowering of a block that may be missing leaves. -/
def outlineOptional (site : Site) : Option (List Stmt) → List Mark
  | none => []
  | some body => outlineBlock site body

/-- What the lowering of the branches of an `if` leaves. -/
def outlineBranches (site : Site) : List Branch → List Mark
  | [] => []
  | ⟨_, body⟩ :: rest => outlineBlock site body ++ outlineBranches site rest

/-- What the lowering of `except` clauses leaves. -/
def outlineHandlers (site : Site) : List Handler → List Mark
  | [] => []
  | ⟨_, _, body, _⟩ :: rest => outlineBlock site body ++ outlineHandlers site rest

/-- What the lowering of `case` clauses leaves. -/
def outlineCases (site : Site) : List MatchCase → List Mark
  | [] => []
  | ⟨_, _, body, _⟩ :: rest => outlineBlock site body ++ outlineCases site rest

end

/-- What a statement leaves, its blocks aside. -/
def StmtKind.ownOutline (site : Site) : StmtKind → List Mark
  | .functionDef definition =>
    (outlineBlock (definition.site site) definition.body).filter (Trace.leaves false) ++
      [.standing (.functionDef definition)]
  | .classDef definition =>
    (outlineBlock definition.site definition.body).filter (Trace.leaves true) ++
      Trace.ofClass site.home.isSome (.classDef definition) definition
  | kind => kind.plainMarks site

section Order

variable (site : Site)

theorem outlineOptional_eq (body : Option (List Stmt)) :
    outlineOptional site body = body.toList.flatMap (outlineBlock site) := by
  cases body with
  | none => rfl
  | some body => rw [outlineOptional, Option.toList_some, List.flatMap_singleton]

theorem outlineBranches_eq (branches : List Branch) :
    outlineBranches site branches = (branches.map Branch.body).flatMap (outlineBlock site) := by
  induction branches with
  | nil => rfl
  | cons branch rest ih =>
    obtain ⟨test, body⟩ := branch
    rw [outlineBranches, ih, List.map_cons, List.flatMap_cons]

theorem outlineHandlers_eq (handlers : List Handler) :
    outlineHandlers site handlers = (handlers.map Handler.body).flatMap (outlineBlock site) := by
  induction handlers with
  | nil => rfl
  | cons handler rest ih =>
    obtain ⟨types, name, body, span⟩ := handler
    rw [outlineHandlers, ih, List.map_cons, List.flatMap_cons]

theorem outlineCases_eq (cases : List MatchCase) :
    outlineCases site cases = (cases.map MatchCase.body).flatMap (outlineBlock site) := by
  induction cases with
  | nil => rfl
  | cons case rest ih =>
    obtain ⟨pattern, guard, body, span⟩ := case
    rw [outlineCases, ih, List.map_cons, List.flatMap_cons]

/-- The blocks of a statement in the order in which they are lowered. -/
def StmtKind.loweredBlocks : StmtKind → List (List Stmt)
  | .tryBlock body handlers orelse finalbody =>
    body :: (handlers.map Handler.body ++ (finalbody.toList ++ orelse.toList))
  | kind => kind.blocks

theorem StmtKind.loweredBlocks_perm (kind : StmtKind) : kind.loweredBlocks.Perm kind.blocks := by
  cases kind with
  | tryBlock body handlers orelse finalbody => exact .cons _ (.append_left _ List.perm_append_comm)
  | _ => exact .refl _

/-- A statement leaves what it leaves itself and what its blocks leave. -/
theorem StmtKind.outline_eq (kind : StmtKind) :
    kind.outline site = kind.ownOutline site ++ kind.loweredBlocks.flatMap (outlineBlock site) := by
  cases kind with
  | ifChain branches orelse =>
    show _ = [] ++ (branches.map Branch.body ++ orelse.toList).flatMap _
    rw [outline, outlineBranches_eq, outlineOptional_eq, List.flatMap_append, List.nil_append]
  | whileLoop test body orelse =>
    show _ = [] ++ (body :: orelse.toList).flatMap _
    rw [outline, outlineOptional_eq, List.flatMap_cons, List.nil_append]
  | forLoop target iter body orelse isAsync =>
    show _ = (fieldMarks site [target] ++ []) ++ (body :: orelse.toList).flatMap _
    rw [outline, outlineOptional_eq, List.flatMap_cons, List.append_nil]
  | tryBlock body handlers orelse finalbody =>
    show _ = [] ++
      (body :: (handlers.map Handler.body ++ (finalbody.toList ++ orelse.toList))).flatMap _
    rw [outline, outlineHandlers_eq, outlineOptional_eq, outlineOptional_eq, List.flatMap_cons,
      List.flatMap_append, List.flatMap_append, List.nil_append]
  | withBlock items body isAsync =>
    show _ = (fieldMarks site (items.filterMap WithItem.target) ++ []) ++ [body].flatMap _
    rw [outline, List.flatMap_singleton, List.append_nil]
  | matchBlock subject cases =>
    show _ = [] ++ (cases.map MatchCase.body).flatMap _
    rw [outline, outlineCases_eq, List.nil_append]
  | functionDef definition =>
    obtain ⟨name, params, returns, body, decorators, isAsync⟩ := definition
    rw [outline]
    exact (List.append_nil _).symm
  | classDef definition =>
    obtain ⟨name, bases, body, decorators⟩ := definition
    rw [outline]
    exact (List.append_nil _).symm
  | _ => exact (List.append_nil _).symm

theorem StmtKind.outline_perm (kind : StmtKind) :
    (kind.outline site).Perm (kind.ownOutline site ++ kind.blocks.flatMap (outlineBlock site)) := by
  rw [kind.outline_eq site]
  exact .append_left _ (kind.loweredBlocks_perm.flatMap_right _)

/-- A body leaves what its own statements leave. -/
theorem outlineBlock_perm (body : List Stmt) :
    (outlineBlock site body).Perm
      ((ownStatements body).flatMap fun s => s.kind.ownOutline site) := by
  match body with
  | [] => exact .refl _
  | ⟨kind, span⟩ :: rest =>
    -- the blocks of the first statement are smaller bodies than the whole
    have hblocks : (kind.blocks.flatMap (outlineBlock site)).Perm
        (kind.blocks.flatMap fun block => (ownStatements block).flatMap fun s =>
          s.kind.ownOutline site) := by
      refine List.Perm.flatMap_left _ fun block hblock => ?_
      have := sizeOf_lt_of_mem_blocks hblock
      exact outlineBlock_perm block
    have hfirst := (kind.outline_perm site).trans (hblocks.append_left _)
    simp only [outlineBlock, ownStatements, reachedBlock, reached_eq, List.flatMap_append,
      List.flatMap_cons, List.flatMap_assoc]
    exact hfirst.append (outlineBlock_perm rest)
termination_by sizeOf body
decreasing_by
  all_goals simp only [List.cons.sizeOf_spec, Stmt.mk.sizeOf_spec]
  all_goals omega

end Order

end Python

end PythonToCSharp
