import PythonToCSharp.Python.Tree

/-!
Walks over the typed tree.

`Expr.children` are the direct subexpressions in source order; a lambda and a comprehension open a
scope of their own and have none. `Expr.subexprs` is the expression with everything that is reached
through `children`, in preorder.

`Stmt.exprs` are the expressions a statement evaluates itself and `Stmt.blocks` the blocks that
stand directly in it, the bodies of definitions left out. `Stmt.reached` lists the statement with
those of its blocks, in preorder, and on demand those of function bodies too.
-/

namespace PythonToCSharp.Python

def Arg.value : Arg → Expr
  | .positional value => value
  | .keyword _ value => value
  | .star value => value
  | .doubleStar value => value

def DictItem.exprs : DictItem → List Expr
  | .pair key value => [key, value]
  | .splat value => [value]

def FStringPart.exprs : FStringPart → List Expr
  | .literal _ => []
  | .interpolation expr _ => [expr]

namespace Expr

/-- The direct subexpressions, in source order, within the same scope. -/
def children : Expr → List Expr
  | .name _ | .int _ | .float _ | .imaginary _ | .str _ | .bool _ | .none | .ellipsis => []
  | .lambda _ _ | .comprehension _ _ _ _ | .unsupported _ _ _ => []
  | .fstring parts _ => parts.flatMap FStringPart.exprs
  | .binary left _ right => [left, right]
  | .boolean _ left right => [left, right]
  | .unary _ operand => [operand]
  | .compare left comparisons => left :: comparisons.map Prod.snd
  | .ifExp test body orelse => [body, test, orelse]
  | .named _ value => [value]
  | .attribute value _ => [value]
  | .subscript value index => value :: index
  | .slice lower upper step => lower.toList ++ upper.toList ++ step.toList
  | .call func args => func :: args.map Arg.value
  | .list items | .tuple items | .set items => items
  | .dict items => items.flatMap DictItem.exprs
  | .await value | .yieldFrom value | .starred value => [value]
  | .yield value => value.toList

mutual

/-- The expression and everything that is reached through `children`, in preorder. -/
def subexprs : Expr → List Expr
  | .fstring parts raw => .fstring parts raw :: subexprsParts parts
  | .binary left op right => .binary left op right :: (left.subexprs ++ right.subexprs)
  | .boolean op left right => .boolean op left right :: (left.subexprs ++ right.subexprs)
  | .unary op operand => .unary op operand :: operand.subexprs
  | .compare left comparisons =>
    .compare left comparisons :: (left.subexprs ++ subexprsCompared comparisons)
  | .ifExp test body orelse =>
    .ifExp test body orelse :: (body.subexprs ++ (test.subexprs ++ orelse.subexprs))
  | .named target value => .named target value :: value.subexprs
  | .attribute value attr => .attribute value attr :: value.subexprs
  | .subscript value index => .subscript value index :: (value.subexprs ++ subexprsList index)
  | .slice lower upper step =>
    .slice lower upper step ::
      (subexprsOption lower ++ (subexprsOption upper ++ subexprsOption step))
  | .call func args => .call func args :: (func.subexprs ++ subexprsArgs args)
  | .list items => .list items :: subexprsList items
  | .tuple items => .tuple items :: subexprsList items
  | .set items => .set items :: subexprsList items
  | .dict items => .dict items :: subexprsItems items
  | .await value => .await value :: value.subexprs
  | .yield value => .yield value :: subexprsOption value
  | .yieldFrom value => .yieldFrom value :: value.subexprs
  | .starred value => .starred value :: value.subexprs
  | leaf => [leaf]

def subexprsList : List Expr → List Expr
  | [] => []
  | e :: rest => e.subexprs ++ subexprsList rest

def subexprsOption : Option Expr → List Expr
  | Option.none => []
  | some e => e.subexprs

def subexprsCompared : List (CmpOp × Expr) → List Expr
  | [] => []
  | (_, e) :: rest => e.subexprs ++ subexprsCompared rest

def subexprsParts : List FStringPart → List Expr
  | [] => []
  | .literal _ :: rest => subexprsParts rest
  | .interpolation e _ :: rest => e.subexprs ++ subexprsParts rest

def subexprsArgs : List Arg → List Expr
  | [] => []
  | .positional e :: rest => e.subexprs ++ subexprsArgs rest
  | .keyword _ e :: rest => e.subexprs ++ subexprsArgs rest
  | .star e :: rest => e.subexprs ++ subexprsArgs rest
  | .doubleStar e :: rest => e.subexprs ++ subexprsArgs rest

def subexprsItems : List DictItem → List Expr
  | [] => []
  | .pair key value :: rest => key.subexprs ++ (value.subexprs ++ subexprsItems rest)
  | .splat e :: rest => e.subexprs ++ subexprsItems rest

end

/-- Whether `p` holds of the expression or of something reached through `children`. -/
def any (p : Expr → Bool) (e : Expr) : Bool :=
  e.subexprs.any p

/-- `subexprs` of a list is `subexprs` of its members, one after the other. -/
theorem subexprsList_eq (items : List Expr) : subexprsList items = items.flatMap subexprs := by
  induction items with
  | nil => rfl
  | cons e rest ih => simp [subexprsList, ih]

theorem subexprsOption_eq (e : Option Expr) : subexprsOption e = e.toList.flatMap subexprs := by
  cases e <;> simp [subexprsOption]

theorem subexprsCompared_eq (cs : List (CmpOp × Expr)) :
    subexprsCompared cs = (cs.map Prod.snd).flatMap subexprs := by
  induction cs with
  | nil => rfl
  | cons c rest ih => simp [subexprsCompared, ih]

theorem subexprsParts_eq (parts : List FStringPart) :
    subexprsParts parts = (parts.flatMap FStringPart.exprs).flatMap subexprs := by
  induction parts with
  | nil => rfl
  | cons part rest ih => cases part <;> simp [subexprsParts, FStringPart.exprs, ih]

theorem subexprsArgs_eq (args : List Arg) :
    subexprsArgs args = (args.map Arg.value).flatMap subexprs := by
  induction args with
  | nil => rfl
  | cons arg rest ih => cases arg <;> simp [subexprsArgs, Arg.value, ih]

theorem subexprsItems_eq (items : List DictItem) :
    subexprsItems items = (items.flatMap DictItem.exprs).flatMap subexprs := by
  induction items with
  | nil => rfl
  | cons item rest ih => cases item <;> simp [subexprsItems, DictItem.exprs, ih]

/-- The walk visits the expression and then its children, each with all that is below it. -/
theorem subexprs_eq (e : Expr) : e.subexprs = e :: e.children.flatMap subexprs := by
  cases e <;>
    simp [subexprs, children, subexprsList_eq, subexprsOption_eq, subexprsCompared_eq,
      subexprsParts_eq, subexprsArgs_eq, subexprsItems_eq]

end Expr

/-- The expressions a statement evaluates itself, its targets included. -/
def StmtKind.exprs : StmtKind → List Expr
  | .expr value => [value]
  | .assign targets value => targets ++ [value]
  | .annAssign target _ value => target :: value.toList
  | .augAssign target _ value => [target, value]
  | .ifChain branches _ => branches.map Branch.test
  | .whileLoop test _ _ => [test]
  | .forLoop target iter _ _ _ => [target, iter]
  | .withBlock items _ _ => items.flatMap fun item => item.context :: item.target.toList
  | .matchBlock subject cases => subject :: cases.filterMap MatchCase.guard
  | .returnStmt value => value.toList
  | .raiseStmt exc cause => exc.toList ++ cause.toList
  | .deleteStmt targets => targets
  | .assertStmt test msg => test :: msg.toList
  | _ => []

/-- The blocks that stand directly in a statement; the bodies of definitions are not among them. -/
def StmtKind.blocks : StmtKind → List (List Stmt)
  | .ifChain branches orelse => branches.map Branch.body ++ orelse.toList
  | .whileLoop _ body orelse => body :: orelse.toList
  | .forLoop _ _ body orelse _ => body :: orelse.toList
  | .tryBlock body handlers orelse finalbody =>
    body :: (handlers.map Handler.body ++ (orelse.toList ++ finalbody.toList))
  | .withBlock _ body _ => [body]
  | .matchBlock _ cases => cases.map MatchCase.body
  | _ => []

mutual

/-- The statement and the statements of its blocks, in preorder; `intoFunctions` says whether the
bodies of function definitions are entered. -/
def Stmt.reached (intoFunctions : Bool) : Stmt → List Stmt
  | ⟨.ifChain branches orelse, span⟩ =>
    ⟨.ifChain branches orelse, span⟩ ::
      (reachedBranches intoFunctions branches ++ reachedOption intoFunctions orelse)
  | ⟨.whileLoop test body orelse, span⟩ =>
    ⟨.whileLoop test body orelse, span⟩ ::
      (reachedBlock intoFunctions body ++ reachedOption intoFunctions orelse)
  | ⟨.forLoop target iter body orelse isAsync, span⟩ =>
    ⟨.forLoop target iter body orelse isAsync, span⟩ ::
      (reachedBlock intoFunctions body ++ reachedOption intoFunctions orelse)
  | ⟨.tryBlock body handlers orelse finalbody, span⟩ =>
    ⟨.tryBlock body handlers orelse finalbody, span⟩ ::
      (reachedBlock intoFunctions body ++ (reachedHandlers intoFunctions handlers ++
        (reachedOption intoFunctions orelse ++ reachedOption intoFunctions finalbody)))
  | ⟨.withBlock items body isAsync, span⟩ =>
    ⟨.withBlock items body isAsync, span⟩ :: reachedBlock intoFunctions body
  | ⟨.matchBlock subject cases, span⟩ =>
    ⟨.matchBlock subject cases, span⟩ :: reachedCases intoFunctions cases
  | ⟨.functionDef ⟨name, params, returns, body, decorators, isAsync⟩, span⟩ =>
    ⟨.functionDef ⟨name, params, returns, body, decorators, isAsync⟩, span⟩ ::
      (if intoFunctions then reachedBlock intoFunctions body else [])
  | ⟨kind, span⟩ => [⟨kind, span⟩]

/-- The statements of a block with those that they reach. -/
def reachedBlock (intoFunctions : Bool) : List Stmt → List Stmt
  | [] => []
  | s :: rest => s.reached intoFunctions ++ reachedBlock intoFunctions rest

def reachedOption (intoFunctions : Bool) : Option (List Stmt) → List Stmt
  | none => []
  | some body => reachedBlock intoFunctions body

def reachedBranches (intoFunctions : Bool) : List Branch → List Stmt
  | [] => []
  | ⟨_, body⟩ :: rest => reachedBlock intoFunctions body ++ reachedBranches intoFunctions rest

def reachedHandlers (intoFunctions : Bool) : List Handler → List Stmt
  | [] => []
  | ⟨_, _, body, _⟩ :: rest => reachedBlock intoFunctions body ++ reachedHandlers intoFunctions rest

def reachedCases (intoFunctions : Bool) : List MatchCase → List Stmt
  | [] => []
  | ⟨_, _, body, _⟩ :: rest => reachedBlock intoFunctions body ++ reachedCases intoFunctions rest

end

theorem reachedBlock_eq (flag : Bool) (body : List Stmt) :
    reachedBlock flag body = body.flatMap (Stmt.reached flag) := by
  induction body with
  | nil => rfl
  | cons s rest ih => rw [reachedBlock, ih, List.flatMap_cons]

theorem reachedOption_eq (flag : Bool) (body : Option (List Stmt)) :
    reachedOption flag body = body.toList.flatMap (reachedBlock flag) := by
  cases body with
  | none => rfl
  | some body => simp [reachedOption]

theorem reachedBranches_eq (flag : Bool) (branches : List Branch) :
    reachedBranches flag branches = (branches.map Branch.body).flatMap (reachedBlock flag) := by
  induction branches with
  | nil => rfl
  | cons branch rest ih =>
    obtain ⟨test, body⟩ := branch
    rw [reachedBranches, ih, List.map_cons, List.flatMap_cons]

theorem reachedHandlers_eq (flag : Bool) (handlers : List Handler) :
    reachedHandlers flag handlers = (handlers.map Handler.body).flatMap (reachedBlock flag) := by
  induction handlers with
  | nil => rfl
  | cons handler rest ih =>
    obtain ⟨types, name, body, span⟩ := handler
    rw [reachedHandlers, ih, List.map_cons, List.flatMap_cons]

theorem reachedCases_eq (flag : Bool) (cases : List MatchCase) :
    reachedCases flag cases = (cases.map MatchCase.body).flatMap (reachedBlock flag) := by
  induction cases with
  | nil => rfl
  | cons case rest ih =>
    obtain ⟨pattern, guard, body, span⟩ := case
    rw [reachedCases, ih, List.map_cons, List.flatMap_cons]

/-- The walk visits the statement and then those of its blocks, each with all that is below it. -/
theorem reached_eq (kind : StmtKind) (span : Span) :
    Stmt.reached false ⟨kind, span⟩ = ⟨kind, span⟩ :: kind.blocks.flatMap (reachedBlock false) := by
  cases kind with
  | ifChain branches orelse =>
    rw [Stmt.reached, reachedBranches_eq, reachedOption_eq, StmtKind.blocks, List.flatMap_append]
  | whileLoop test body orelse =>
      rw [Stmt.reached, reachedOption_eq, StmtKind.blocks, List.flatMap_cons]
  | forLoop target iter body orelse isAsync =>
    rw [Stmt.reached, reachedOption_eq, StmtKind.blocks, List.flatMap_cons]
  | tryBlock body handlers orelse finalbody =>
    rw [Stmt.reached, reachedHandlers_eq, reachedOption_eq, reachedOption_eq, StmtKind.blocks,
      List.flatMap_cons, List.flatMap_append, List.flatMap_append]
  | withBlock items body isAsync => rw [Stmt.reached, StmtKind.blocks, List.flatMap_singleton]
  | matchBlock subject cases => rw [Stmt.reached, reachedCases_eq, StmtKind.blocks]
  | functionDef definition =>
    obtain ⟨name, params, returns, body, decorators, isAsync⟩ := definition
    rfl
  | _ => rfl

/-- The statements of a body's own blocks, in preorder: those of nested definitions are not among
them. -/
def ownStatements (body : List Stmt) : List Stmt :=
  reachedBlock false body

end PythonToCSharp.Python
