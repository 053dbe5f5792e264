import PythonToCSharp.Proofs.Naming.Statements

/-!
What of a module is reported, and where.

A notice is a construct together with its place: that of the innermost statement, `except` clause or
`case` around the construct. `Module.notices` lists the notices of a module in the order in which
the constructs are lowered. Whether something is reported depends on the construct and on the body
it stands in, its `Context`; an operand that is lowered twice is reported twice.
-/

namespace PythonToCSharp.Scope

/-- What of the body around decides which parts of a statement are reported. -/
structure Context where
  kind : Kind
  isGenerator : Bool
  /-- Whether a `break` would leave a `match` and no loop. -/
  inSwitch : Bool

namespace Context

/-- At the top level of a module. -/
def ofModule : Context := ⟨.module_, false, false⟩

/-- In the body of a class. -/
def ofClass : Context := ⟨.class_, false, false⟩

/-- In the body of a function. -/
def ofFunction (body : List Python.Stmt) : Context := ⟨.function, Python.yieldsIn body, false⟩

/-- In the body of a loop. -/
def inLoop (context : Context) : Context := { context with inSwitch := false }

/-- In the cases of a `match`. -/
def inMatch (context : Context) : Context := { context with inSwitch := true }

end Context

end PythonToCSharp.Scope

namespace PythonToCSharp.Python

open Scope (Context)

/-- What a finding may be about. -/
inductive Construct where
  | expr (e : Expr)
  /-- A parameter of a lambda that is more than a name. -/
  | lambdaParam (param : Param)
  /-- `**value` among arguments. -/
  | unpackedArgument (value : Expr)
  /-- `**value` in a dictionary display. -/
  | unpackedItem (value : Expr)
  /-- `*value` among targets. -/
  | unpackedTarget (value : Expr)
  /-- `value[index]` behind `del`. -/
  | deletedItem (value : Expr) (index : List Expr)
  /-- A decorator that is not applied. -/
  | decorator (e : Expr)
  /-- An argument of a class that is no base. -/
  | classArgument (className : String) (arg : Arg)
  | pattern (p : Pattern)
  | stmt (kind : StmtKind)

/-- The place that a construct has itself: only what is unsupported among expressions and patterns
has one. -/
def Construct.ownSpan? : Construct → Option Span
  | .expr (.unsupported _ _ span) => some span
  | .pattern (.unsupported _ _ span) => some span
  | _ => none

/-- A construct with the place of the innermost statement, `except` clause or `case` around it. -/
structure Notice where
  place : Span
  construct : Construct

/-- Constructs at one place. -/
def placed (place : Span) (constructs : List Construct) : List Notice :=
  constructs.map (Notice.mk place)

theorem placed_append (place : Span) (first rest : List Construct) :
    placed place (first ++ rest) = placed place first ++ placed place rest :=
  List.map_append

/-! ## Expressions -/

namespace Expr

/-- The parameters of a lambda that lose a default or an unpacking. -/
def reportedParams (params : List Param) : List Construct :=
  (params.filter fun param => param.default.isSome || param.kind != .normal).map .lambdaParam

/-- What two operands of a comparison report, in the order in which they are lowered. -/
def comparedInOrder (op : CmpOp) (left right : List Construct) : List Construct :=
  match op with
  | .isIn | .notIn => right ++ left
  | _ => left ++ right

mutual

/-- What of an expression is reported. -/
def reported : Expr → List Construct
  | .fstring parts _ => reportedParts parts
  | .ellipsis => [.expr .ellipsis]
  | .binary left _ right => left.reported ++ right.reported
  | .unary _ operand => operand.reported
  | .boolean _ left right => left.reported ++ right.reported
  | .compare left comparisons => reportedCompared left.reported comparisons
  | .ifExp test body orelse => test.reported ++ (body.reported ++ orelse.reported)
  | .lambda params body => reportedParams params ++ body.reported
  | .named _ value => value.reported
  | .attribute value _ => value.reported
  | .subscript value index => value.reported ++ reportedList index
  | .slice lower upper step => reportedOption lower ++ (reportedOption upper ++ reportedOption step)
  | .call func args => func.reported ++ reportedArgs args
  | .list items => reportedList items
  | .tuple items => reportedList items
  | .set items => reportedList items
  | .dict items => reportedItems items
  | .comprehension .dict element value clauses =>
    reportedClauses clauses ++ (element.reported ++ reportedOption value)
  | .comprehension _ element _ clauses => reportedClauses clauses ++ element.reported
  | .await value => value.reported
  | .yield value => .expr (.yield value) :: reportedOption value
  | .yieldFrom value => .expr (.yieldFrom value) :: value.reported
  | .starred value => .expr (.starred value) :: value.reported
  | .unsupported kind text span => [.expr (.unsupported kind text span)]
  | _ => []

/-- What of expressions is reported, from the left. -/
def reportedList : List Expr → List Construct
  | [] => []
  | e :: rest => e.reported ++ reportedList rest

/-- What of an optional expression is reported. -/
def reportedOption : Option Expr → List Construct
  | Option.none => []
  | some e => e.reported

/-- What of the links of a comparison chain is reported; a middle operand is lowered twice. -/
def reportedCompared (left : List Construct) : List (CmpOp × Expr) → List Construct
  | [] => []
  | (op, right) :: rest => comparedInOrder op left right.reported ++
      reportedCompared right.reported rest

/-- What of the parts of an f-string is reported. -/
def reportedParts : List FStringPart → List Construct
  | [] => []
  | .literal _ :: rest => reportedParts rest
  | .interpolation e _ :: rest => e.reported ++ reportedParts rest

/-- What of arguments is reported. -/
def reportedArgs : List Arg → List Construct
  | [] => []
  | .positional e :: rest => e.reported ++ reportedArgs rest
  | .keyword _ e :: rest => e.reported ++ reportedArgs rest
  | .star e :: rest => e.reported ++ reportedArgs rest
  | .doubleStar e :: rest => .unpackedArgument e :: (e.reported ++ reportedArgs rest)

/-- What of the entries of a dictionary display is reported. -/
def reportedItems : List DictItem → List Construct
  | [] => []
  | .pair key value :: rest => key.reported ++ (value.reported ++ reportedItems rest)
  | .splat e :: rest => .unpackedItem e :: (e.reported ++ reportedItems rest)

/-- What of the clauses of a comprehension is reported; what is iterated over comes before the
target. -/
def reportedClauses : List Clause → List Construct
  | [] => []
  | .forIn target iter :: rest => iter.reported ++ (target.reported ++ reportedClauses rest)
  | .onlyIf test :: rest => test.reported ++ reportedClauses rest

end

theorem reportedList_append (first rest : List Expr) :
    reportedList (first ++ rest) = reportedList first ++ reportedList rest := by
  induction first with
  | nil => rfl
  | cons e others ih => simp [reportedList, ih]

mutual

/-- What of a target is reported. -/
def reportedTarget : Expr → List Construct
  | .tuple items => reportedTargets items
  | .list items => reportedTargets items
  | .starred value => .unpackedTarget value :: value.reportedTarget
  | target => target.reported

/-- What of targets is reported, from the left. -/
def reportedTargets : List Expr → List Construct
  | [] => []
  | target :: rest => target.reportedTarget ++ reportedTargets rest

end

mutual

/-- What of a target of `del` is reported. -/
def reportedDeleted : Expr → List Construct
  | .subscript value index => .deletedItem value index :: (value.reported ++ reportedList index)
  | .tuple items => reportedDeletes items
  | .list items => reportedDeletes items
  | target => target.reported

/-- What of the targets of `del` is reported, from the left. -/
def reportedDeletes : List Expr → List Construct
  | [] => []
  | target :: rest => target.reportedDeleted ++ reportedDeletes rest

end

/-- What of an expression is reported that is a statement: there `...` and `yield` have
counterparts. -/
def reportedAlone : Expr → List Construct
  | .ellipsis => []
  | .yield value => reportedOption value
  | .yieldFrom source => source.reported
  | value => value.reported

end Expr

/-! ## Patterns -/

namespace Pattern

mutual

/-- What of a pattern is reported. -/
def reported : Pattern → List Construct
  | .literal constant => constant.reported
  | .sequence items => reportedAll items
  | .mapping items rest => .pattern (.mapping items rest) :: reportedEntries items
  | .classPattern _ positional keywords => reportedAll positional ++ reportedKeywords keywords
  | .either alternatives => reportedAll alternatives
  | .asName pattern _ => pattern.reported
  | .unsupported kind text span => [.pattern (.unsupported kind text span)]
  | _ => []

/-- What of patterns is reported, from the left. -/
def reportedAll : List Pattern → List Construct
  | [] => []
  | p :: rest => p.reported ++ reportedAll rest

/-- What of the entries of a mapping pattern is reported. -/
def reportedEntries : List (Pattern × Pattern) → List Construct
  | [] => []
  | (key, item) :: rest => key.reported ++ (item.reported ++ reportedEntries rest)

/-- What of the keyword patterns of a class pattern is reported. -/
def reportedKeywords : List (String × Pattern) → List Construct
  | [] => []
  | (_, p) :: rest => p.reported ++ reportedKeywords rest

end

end Pattern

/-! ## Heads of statements -/

open Python.Expr (reportedList reportedOption reportedTargets reportedDeletes)

/-- What of an item of a `with` is reported. -/
def WithItem.reported (item : WithItem) : List Construct :=
  item.context.reported ++ item.target.toList.flatMap Expr.reportedTarget

/-- What of a decorator that is not applied is reported: first what stands in it. -/
def reportedDecorator (decorator : Expr) : List Construct :=
  decorator.reported ++ [.decorator decorator]

/-- What of an argument of a class is reported. -/
def reportedBase (className : String) : Arg → List Construct
  | .positional base => base.reported
  | arg => [.classArgument className arg]

/-- What of the head of a function is reported. -/
def FunctionDef.reported (inClass : Bool) (definition : FunctionDef) : List Construct :=
  (Lowering.otherDecorators inClass definition.decorators).flatMap reportedDecorator ++
    reportedList ((Lowering.splitReceiver (Lowering.roleOf inClass definition.decorators)
      definition.params).2.flatMap Param.loweredDefault)

/-- What of the head of a class is reported; a class is moved out of a function around it. -/
def ClassDef.reported (inFunction : Bool) (definition : ClassDef) : List Construct :=
  (if inFunction then [.stmt (.classDef definition)] else []) ++
    (definition.decorators.flatMap reportedDecorator ++
      definition.bases.flatMap (reportedBase definition.name))

/-- What of a statement without blocks is reported. -/
def StmtKind.reported (context : Context) : StmtKind → List Construct
  | .expr value => value.reportedAlone
  | .assign targets value => value.reported ++ reportedTargets targets
  | .annAssign _ _ none => []
  | .annAssign target _ (some value) => target.reportedTarget ++ value.reported
  | .augAssign target _ value => target.reported ++ value.reported
  | .returnStmt value =>
    if context.isGenerator then value.toList.map fun value => .stmt (.returnStmt (some value))
    else reportedOption value
  | .raiseStmt exc cause =>
    (cause.toList.map fun cause => .stmt (.raiseStmt exc (some cause))) ++ reportedOption exc
  | .deleteStmt targets => reportedDeletes targets
  | .assertStmt test msg => test.reported ++ reportedOption msg
  | .importFrom path names wildcard =>
    if path.toList.head? = some '.' then [.stmt (.importFrom path names wildcard)] else []
  | .breakStmt => if context.inSwitch then [.stmt .breakStmt] else []
  | .unsupported kind text => [.stmt (.unsupported kind text)]
  | _ => []

/-! ## Statements -/

mutual

/-- The notices of a statement. -/
def Stmt.notices (context : Context) : Stmt → List Notice
  | ⟨kind, span⟩ => kind.notices context span

/-- The notices of a statement at its place. -/
def StmtKind.notices (context : Context) (place : Span) : StmtKind → List Notice
  | .ifChain branches orelse => noticesBranches context place branches ++
      noticesOptional context orelse
  | .whileLoop test body orelse =>
    placed place test.reported ++
      (noticesBlock context.inLoop body ++ noticesOptional context orelse)
  | .forLoop target iter body orelse _ =>
    placed place (iter.reported ++ target.reportedTarget) ++
      (noticesBlock context.inLoop body ++ noticesOptional context orelse)
  | .tryBlock body handlers orelse finalbody =>
    noticesBlock context body ++ (noticesHandlers context handlers ++
      (noticesOptional context finalbody ++ noticesOptional context orelse))
  | .withBlock items body _ => placed place (items.flatMap WithItem.reported) ++
      noticesBlock context body
  | .functionDef ⟨name, params, returns, body, decorators, isAsync⟩ =>
    placed place
        (FunctionDef.reported (context.kind == .class_)
          ⟨name, params, returns, body, decorators, isAsync⟩) ++
      noticesBlock (.ofFunction body) body
  | .classDef ⟨name, bases, body, decorators⟩ =>
    placed place (ClassDef.reported (context.kind == .function) ⟨name, bases, body, decorators⟩) ++
      noticesBlock .ofClass body
  | .matchBlock subject cases => placed place subject.reported ++ noticesCases context.inMatch cases
  | kind => placed place (kind.reported context)

/-- The notices of the statements of a block. -/
def noticesBlock (context : Context) : List Stmt → List Notice
  | [] => []
  | s :: rest => s.notices context ++ noticesBlock context rest

/-- The notices of a block that may be missing. -/
def noticesOptional (context : Context) : Option (List Stmt) → List Notice
  | none => []
  | some body => noticesBlock context body

/-- The notices of the branches of an `if`, whose tests are at the place of the `if`. -/
def noticesBranches (context : Context) (place : Span) : List Branch → List Notice
  | [] => []
  | ⟨test, body⟩ :: rest =>
    placed place test.reported ++ (noticesBlock context body ++ noticesBranches context place rest)

/-- The notices of `except` clauses, each at its own place. -/
def noticesHandlers (context : Context) : List Handler → List Notice
  | [] => []
  | ⟨types, _, body, span⟩ :: rest =>
    placed span (reportedList types) ++ (noticesBlock context body ++ noticesHandlers context rest)

/-- The notices of `case` clauses, each at its own place; guards are lowered before patterns. -/
def noticesCases (context : Context) : List MatchCase → List Notice
  | [] => []
  | ⟨pattern, guard, body, span⟩ :: rest =>
    placed span (reportedOption guard ++ pattern.reported) ++
      (noticesBlock context body ++ noticesCases context rest)

end

/-- The notices of a module. -/
def Module.notices (source : Module) : List Notice :=
  noticesBlock .ofModule source.body

end PythonToCSharp.Python
