import PythonToCSharp.Reading.Expression
import PythonToCSharp.Reading.PatternReader

/-!
Nodes as statements, and blocks. A block has one statement for each named child, comments included;
a child that cannot be read stays as it is written, whatever its siblings are.
-/

namespace PythonToCSharp.Reading

open Python Concrete

def stmtAt (t : ReadTree) : Stmt :=
  ⟨t.value.stmt.getD (.unsupported t.kind t.text), t.info.span⟩

/-- The statements below a module or a block. -/
def readBlock (children : List ReadTree) : List Stmt :=
  (children.filter fun child => child.info.named).map stmtAt

def blockField (name : String) (children : List ReadTree) : Option (List Stmt) :=
  (field? name children).map fun t => readBlock t.children

def firstBlock (children : List ReadTree) : Option (List Stmt) :=
  (partOf? "block" children).map fun t => readBlock t.children

def readElse (t : ReadTree) : Option (List Stmt) :=
  (blockField "body" t.children).or (firstBlock t.children)

/-- The block of the `else` clause of a loop, if there is one. -/
def optionalElse (children : List ReadTree) : Option (Option (List Stmt)) :=
  optionally readElse (field? "alternative" children)

def bareExpression : Expr → StmtKind
  | .unsupported kind text _ => .unsupported kind text
  | e => .expr e

/-- A node as the right side of an assignment; `expr` is what it is as an expression. `a = b = c`
nests to the right, but an assignment with a type assigns nothing further. -/
def readAssigned (info : Info) (children : List ReadTree) (expr : Option Expr) :
    Option (List Expr × Expr) :=
  if info.kind = "assignment" ∧ (field? "type" children).isNone then do
    let target ← exprField "left" children
    let (targets, value) ← (← field? "right" children).value.assigned
    return (target :: targets, value)
  else expr.map fun value => ([], value)

/-- An assignment: with a type, or with one target or more. -/
def readAssignment (children : List ReadTree) : Option StmtKind := do
  let target ← exprField "left" children
  match field? "type" children with
  | some hint => return .annAssign target (← asExpr hint) (← optionalField "right" children)
  | none =>
    let (targets, value) ← (← field? "right" children).value.assigned
    return .assign (target :: targets) value

def readAugmented (children : List ReadTree) : Option StmtKind := do
  let op ← BinaryOp.ofAssignment? (← textField "operator" children)
  return .augAssign (← exprField "left" children) op (← exprField "right" children)

/-- The statement in an expression statement; several expressions are a tuple. -/
def readExpressionStatement (children : List ReadTree) : Option StmtKind :=
  match parts children with
  | [] => none
  | [only] =>
    match only.kind with
    | "assignment" => readAssignment only.children
    | "augmented_assignment" => readAugmented only.children
    | _ => (asExpr only).map bareExpression
  | many => (asExprs many).map fun items => .expr (.tuple items)

def readBranch (children : List ReadTree) : Option Branch := do
  return ⟨← exprField "condition" children, ← blockField "consequence" children⟩

/-- The further branches of an `if` and the last of its `else` clauses. -/
def readAlternatives : List ReadTree → Option (List Branch × Option (List Stmt))
  | [] => some ([], none)
  | t :: rest =>
    match t.kind with
    | "elif_clause" => do
      let branch ← readBranch t.children
      let (branches, orelse) ← readAlternatives rest
      return (branch :: branches, orelse)
    | "else_clause" => do
      let body ← readElse t
      let (branches, orelse) ← readAlternatives rest
      return (branches, orelse.or (some body))
    | _ => none

def readIf (children : List ReadTree) : Option StmtKind := do
  let first ← readBranch children
  let (branches, orelse) ← readAlternatives (fields "alternative" children)
  return .ifChain (first :: branches) orelse

/-- The exceptions an `except` clause names. -/
def exceptionTypes (t : ReadTree) : Option (List Expr) :=
  match t.kind with
  | "tuple" => asExprs (parts t.children)
  | "parenthesized_expression" => do
    let inner ← part? t.children
    match inner.kind with
    | "expression_list" | "tuple" => asExprs (parts inner.children)
    | _ => (asExpr inner).map ([·])
  | _ => (asExpr t).map ([·])

/-- The node with the exceptions of an `except` clause and the one with its name. -/
def exceptHeader (children : List ReadTree) : Option (Option ReadTree × Option ReadTree) :=
  let header := (parts children).filter fun t => t.kind != "block"
  let (caught, given) :=
    match field? "value" children with
    | some value => (some value, field? "alias" children)
    | none => (header[0]?, header[1]?)
  match caught with
  | some value =>
    if value.kind = "as_pattern" then do
      let inner ← part? value.children
      return (some inner, (field? "alias" value.children).or (parts value.children)[1]?)
    else some (some value, given)
  | none => some (none, given)

def readHandler (t : ReadTree) : Option Handler := do
  let body ← firstBlock t.children
  let (caught, given) ← exceptHeader t.children
  let types ← (caught.map exceptionTypes).getD (some [])
  return ⟨types, given.map fun name => Text.trim name.text, body, t.info.span⟩

/-- What the clauses of a `try` statement give: its handlers, and the last `else` and `finally`
blocks. -/
structure TryClauses where
  handlers : List Handler := []
  orelse : Option (List Stmt) := none
  finalbody : Option (List Stmt) := none

/-- The clauses of a `try` statement; its other children are passed over. -/
def readTryClauses : List ReadTree → TryClauses → Option TryClauses
  | [], found => some found
  | t :: rest, found =>
    match t.kind with
    | "except_clause" | "except_group_clause" => do
      let handler ← readHandler t
      readTryClauses rest { found with handlers := found.handlers ++ [handler] }
    | "else_clause" => do
      let body ← readElse t
      readTryClauses rest { found with orelse := some body }
    | "finally_clause" => do
      let body ← readElse t
      readTryClauses rest { found with finalbody := some body }
    | _ => readTryClauses rest found

def readTry (children : List ReadTree) : Option StmtKind := do
  let body ← blockField "body" children
  let clauses ← readTryClauses (parts children) {}
  return .tryBlock body clauses.handlers clauses.orelse clauses.finalbody

def readWithTarget (t : ReadTree) : Option Expr :=
  if t.kind = "as_pattern_target" then
    match part? t.children with
    | some inner => asExpr inner
    | none => some (.name (Text.trim t.text))
  else asExpr t

def readWithItem (t : ReadTree) : Option WithItem := do
  let value ← field? "value" t.children
  if value.kind = "as_pattern" then
    let target := (field? "alias" value.children).or (parts value.children)[1]?
    return ⟨← firstExpr value.children, ← optionally readWithTarget target⟩
  else
    return ⟨← asExpr value, ← optionalField "alias" t.children⟩

def readWith (children : List ReadTree) : Option StmtKind := do
  let clauses := partsOf "with_clause" children
  let items ← (clauses.flatMap fun clause => partsOf "with_item" clause.children).mapM readWithItem
  return .withBlock items (← blockField "body" children) (hasToken "async" children)

def readFunction (children : List ReadTree) (decorators : List Expr) : Option StmtKind := do
  return .functionDef
    { name := ← textField "name" children
      params := ← readParamsField children
      returns := ← optionalField "return_type" children
      body := ← blockField "body" children
      decorators := decorators
      isAsync := hasToken "async" children }

def readClass (children : List ReadTree) (decorators : List Expr) : Option StmtKind := do
  return .classDef
    { name := ← textField "name" children
      bases := (← optionally readArguments (field? "superclasses" children)).getD []
      body := ← blockField "body" children
      decorators := decorators }

/-- A definition behind its decorators. -/
def readDecorated (children : List ReadTree) : Option StmtKind := do
  let decorators ← (partsOf "decorator" children).mapM fun t => firstExpr t.children
  let definition ← field? "definition" children
  match definition.kind with
  | "function_definition" => readFunction definition.children decorators
  | "class_definition" => readClass definition.children decorators
  | _ => none

/-- A `case` clause; several patterns are a sequence. -/
def readCase (t : ReadTree) : Option MatchCase := do
  let given := fields "pattern" t.children
  let patterns := if given.isEmpty then partsOf "case_pattern" t.children else given
  let pattern ←
    match patterns with
    | [only] => asPattern only
    | many => (asPatterns many).map .sequence
  let guardNode := (field? "guard" t.children).or (partOf? "if_clause" t.children)
  let guard ← optionally (fun g : ReadTree => firstExpr g.children) guardNode
  let body ← (blockField "consequence" t.children).or (firstBlock t.children)
  return ⟨pattern, guard, body, t.info.span⟩

/-- A `match` statement; its cases stand in its body, or in the statement itself. -/
def readMatch (children : List ReadTree) : Option StmtKind := do
  let subjects := fields "subject" children
  if subjects.isEmpty then none
  else
    let subject ← asTuple subjects
    let container := ((field? "body" children).map Concrete.Tree.children).getD children
    let cases ← (partsOf "case_clause" container).mapM readCase
    return .matchBlock subject cases

/-- A `raise` statement: its exception is the first named child that is not its cause. -/
def readRaise (children : List ReadTree) : Option StmtKind := do
  let others := children.eraseP fun child => child.info.field == some "cause"
  return .raiseStmt (← optionally asExpr (part? others)) (← optionalField "cause" children)

def readDelete (children : List ReadTree) : Option StmtKind := do
  let target ← part? children
  if target.kind = "expression_list" then
    return .deleteStmt (← asExprs (parts target.children))
  else
    return .deleteStmt [← asExpr target]

def readAssert (children : List ReadTree) : Option StmtKind :=
  match parts children with
  | [] => none
  | test :: rest => do return .assertStmt (← asExpr test) (← optionally asExpr rest.head?)

def readImportNames (children : List ReadTree) : Option (List ImportName) :=
  (fields "name" children).mapM fun t =>
    if t.kind = "aliased_import" then do
      return ⟨← textField "name" t.children, some (← textField "alias" t.children)⟩
    else some ⟨t.text, none⟩

def readImportFrom (children : List ReadTree) : Option StmtKind := do
  let path ← textField "module_name" children
  let names ← readImportNames children
  return .importFrom path names (partOf? "wildcard_import" children).isSome

def listedNames (children : List ReadTree) : List String :=
  (partsOf "identifier" children).map Concrete.Tree.text

/-- A comment without its hash and without the blanks around it. -/
def commentText (text : String) : String :=
  match text.toList with
  | '#' :: rest => String.ofList (Text.trimChars rest)
  | cs => String.ofList (Text.trimChars cs)

/-- A node as a statement; `expr` is what it is as an expression. -/
def readStmt (info : Info) (children : List ReadTree) (expr : Option Expr) : Option StmtKind :=
  match info.kind with
  | "comment" => some (.comment (commentText info.text))
  | "expression_statement" => readExpressionStatement children
  | "assignment" => readAssignment children
  | "augmented_assignment" => readAugmented children
  | "if_statement" => readIf children
  | "while_statement" => do
    return .whileLoop (← exprField "condition" children) (← blockField "body" children)
      (← optionalElse children)
  | "for_statement" => do
    return .forLoop (← exprField "left" children) (← exprField "right" children)
      (← blockField "body" children) (← optionalElse children) (hasToken "async" children)
  | "try_statement" => readTry children
  | "with_statement" => readWith children
  | "match_statement" => readMatch children
  | "function_definition" => readFunction children []
  | "class_definition" => readClass children []
  | "decorated_definition" => readDecorated children
  | "return_statement" => (optionally asExpr (part? children)).map .returnStmt
  | "raise_statement" => readRaise children
  | "delete_statement" => readDelete children
  | "assert_statement" => readAssert children
  | "import_statement" => (readImportNames children).map .importStmt
  | "import_from_statement" => readImportFrom children
  | "future_import_statement" => some (.comment info.text)
  | "global_statement" => some (.globalStmt (listedNames children))
  | "nonlocal_statement" => some (.nonlocalStmt (listedNames children))
  | "pass_statement" => some .passStmt
  | "break_statement" => some .breakStmt
  | "continue_statement" => some .continueStmt
  | _ => expr.map bareExpression

end PythonToCSharp.Reading
