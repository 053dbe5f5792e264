import PythonToCSharp.Python.Walk

/-!
What a body binds and what decides the type of a function: the names it binds in its own statements,
the names it or a function in it declares global, whether it yields, and whether it returns a value.
-/

namespace PythonToCSharp.Python

namespace Expr

mutual

/-- The single targets of an assignment target: unpacking and stars are taken apart. -/
def targets : Expr → List Expr
  | .tuple items => targetsAll items
  | .list items => targetsAll items
  | .starred value => value.targets
  | target => [target]

def targetsAll : List Expr → List Expr
  | [] => []
  | e :: rest => e.targets ++ targetsAll rest

end

/-- The name that an expression is, if it is one. -/
def name? : Expr → Option String
  | .name id => some id
  | _ => Option.none

def boundNames (target : Expr) : List String :=
  target.targets.filterMap name?

/-- The name that an assignment expression binds. -/
def namedTarget? : Expr → Option String
  | .named target _ => some target
  | _ => Option.none

/-- Whether an expression yields itself. -/
def isYield : Expr → Bool
  | .yield _ => true
  | .yieldFrom _ => true
  | _ => false

end Expr

namespace Pattern

mutual

def boundNames : Pattern → List String
  | .capture name => [name]
  | .star name => name.toList
  | .sequence items => boundNamesAll items
  | .either alternatives => boundNamesAll alternatives
  | .mapping items rest => boundNamesEntries items ++ rest.toList
  | .classPattern _ positional keywords => boundNamesAll positional ++ boundNamesKeywords keywords
  | .asName pattern name => name :: pattern.boundNames
  | _ => []

def boundNamesAll : List Pattern → List String
  | [] => []
  | p :: rest => p.boundNames ++ boundNamesAll rest

def boundNamesEntries : List (Pattern × Pattern) → List String
  | [] => []
  | (_, p) :: rest => p.boundNames ++ boundNamesEntries rest

def boundNamesKeywords : List (String × Pattern) → List String
  | [] => []
  | (_, p) :: rest => p.boundNames ++ boundNamesKeywords rest

end

end Pattern

/-- The names that a statement binds by its form. -/
def StmtKind.boundByForm : StmtKind → List String
  | .functionDef definition => [definition.name]
  | .classDef definition => [definition.name]
  | .assign targets _ => targets.flatMap Expr.boundNames
  | .annAssign target _ _ => target.boundNames
  | .augAssign target _ _ => target.boundNames
  | .forLoop target _ _ _ _ => target.boundNames
  | .withBlock items _ _ => (items.filterMap WithItem.target).flatMap Expr.boundNames
  | .tryBlock _ handlers _ _ => handlers.filterMap Handler.name
  | .matchBlock _ cases => cases.flatMap fun case => case.pattern.boundNames
  | _ => []

/-- The names that a statement binds, assignment expressions included; its blocks are not entered.
-/
def StmtKind.boundNames (kind : StmtKind) : List String :=
  kind.boundByForm ++ kind.exprs.flatMap fun e => e.subexprs.filterMap Expr.namedTarget?

def StmtKind.globalNames : StmtKind → List String
  | .globalStmt names => names
  | _ => []

def boundIn (body : List Stmt) : List String :=
  (ownStatements body).flatMap fun s => s.kind.boundNames

/-- The names that a body or a function in it declares global. -/
def globalsOf (body : List Stmt) : List String :=
  (reachedBlock true body).flatMap fun s => s.kind.globalNames

/-- Whether a statement evaluates a `yield` itself. -/
def StmtKind.yields (kind : StmtKind) : Bool :=
  kind.exprs.any fun e => e.any Expr.isYield

def StmtKind.returnsValue : StmtKind → Bool
  | .returnStmt value => value.isSome
  | _ => false

/-- Whether a body yields, which makes a function a generator. -/
def yieldsIn (body : List Stmt) : Bool :=
  (ownStatements body).any fun s => s.kind.yields

def returnsValueIn (body : List Stmt) : Bool :=
  (ownStatements body).any fun s => s.kind.returnsValue

end PythonToCSharp.Python
