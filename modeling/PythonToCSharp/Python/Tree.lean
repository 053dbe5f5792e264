import PythonToCSharp.Python.Operator
import PythonToCSharp.Python.Span

/-!
The typed tree of a Python file: expressions, the patterns of `match`, statements and modules.

Numbers and strings are kept as they are written. A construct that has no form of its own is kept as
`unsupported`, with the kind the parser gave it and its source text.
-/

namespace PythonToCSharp.Python

/-- A string literal without its quotes, escapes untouched. -/
structure StringLiteral where
  body : String
  raw : Bool
  bytes : Bool
  deriving DecidableEq, Repr

/-- How a parameter takes its argument: one, the rest (`*args`) or the rest by name (`**kwargs`). -/
inductive ParamKind where
  | normal
  | varArgs
  | kwArgs
  deriving DecidableEq, Repr

/-- What a comprehension builds. -/
inductive ComprehensionKind where
  | list
  | set
  | dict
  | generator
  deriving DecidableEq, Repr

mutual

inductive Expr where
  | name (id : String)
  | int (text : String)
  | float (text : String)
  | imaginary (text : String)
  | str (literal : StringLiteral)
  | fstring (parts : List FStringPart) (raw : Bool)
  | bool (value : Bool)
  | none
  | ellipsis
  | binary (left : Expr) (op : BinaryOp) (right : Expr)
  | unary (op : UnaryOp) (operand : Expr)
  | boolean (op : BoolOp) (left right : Expr)
  /-- `a < b <= c` compares `a` with `[(lt, b), (le, c)]`. -/
  | compare (left : Expr) (comparisons : List (CmpOp × Expr))
  /-- `body if test else orelse` -/
  | ifExp (test body orelse : Expr)
  | lambda (params : List Param) (body : Expr)
  /-- `target := value` -/
  | named (target : String) (value : Expr)
  | attribute (value : Expr) (attr : String)
  | subscript (value : Expr) (index : List Expr)
  | slice (lower upper step : Option Expr)
  | call (func : Expr) (args : List Arg)
  | list (items : List Expr)
  | tuple (items : List Expr)
  | set (items : List Expr)
  | dict (items : List DictItem)
  | comprehension (kind : ComprehensionKind) (element : Expr) (value : Option Expr)
      (clauses : List Clause)
  | await (value : Expr)
  | yield (value : Option Expr)
  | yieldFrom (value : Expr)
  | starred (value : Expr)
  | unsupported (kind text : String) (span : Span)

inductive FStringPart where
  /-- Text as written, escapes untouched. -/
  | literal (text : String)
  | interpolation (expr : Expr) (formatSpec : Option String)

/-- An argument of a call or of a class header. -/
inductive Arg where
  | positional (value : Expr)
  | keyword (name : String) (value : Expr)
  | star (value : Expr)
  | doubleStar (value : Expr)

inductive DictItem where
  | pair (key value : Expr)
  | splat (value : Expr)

/-- A clause of a comprehension: `for target in iter` or `if test`. -/
inductive Clause where
  | forIn (target iter : Expr)
  | onlyIf (test : Expr)

/-- A parameter of a function or a lambda, with its type hint and its default value. -/
structure Param where
  name : String
  kind : ParamKind
  hint : Option Expr
  default : Option Expr

end

instance : Inhabited Expr := ⟨.none⟩

inductive Pattern where
  | wildcard
  /-- A bare name, which is bound to the subject. -/
  | capture (name : String)
  | literal (value : Expr)
  /-- A dotted constant such as `Color.RED`. -/
  | value (path : String)
  | sequence (items : List Pattern)
  /-- `*rest` in a sequence, without a name for `*_`. -/
  | star (name : Option String)
  | mapping (items : List (Pattern × Pattern)) (rest : Option String)
  | classPattern (cls : String) (positional : List Pattern) (keywords : List (String × Pattern))
  | either (alternatives : List Pattern)
  | asName (pattern : Pattern) (name : String)
  | unsupported (kind text : String) (span : Span)

instance : Inhabited Pattern := ⟨.wildcard⟩

/-- A name brought in by an import, dotted as written. -/
structure ImportName where
  name : String
  asName : Option String
  deriving DecidableEq, Repr

structure WithItem where
  context : Expr
  target : Option Expr

mutual

/-- What a statement says, apart from its place. -/
inductive StmtKind where
  | expr (value : Expr)
  /-- `a = b = value`, the targets in source order. -/
  | assign (targets : List Expr) (value : Expr)
  | annAssign (target hint : Expr) (value : Option Expr)
  | augAssign (target : Expr) (op : BinaryOp) (value : Expr)
  /-- The branches of `if` and `elif`, the one of `if` first. -/
  | ifChain (branches : List Branch) (orelse : Option (List Stmt))
  | whileLoop (test : Expr) (body : List Stmt) (orelse : Option (List Stmt))
  | forLoop (target iter : Expr) (body : List Stmt) (orelse : Option (List Stmt)) (isAsync : Bool)
  | tryBlock (body : List Stmt) (handlers : List Handler) (orelse finalbody : Option (List Stmt))
  | withBlock (items : List WithItem) (body : List Stmt) (isAsync : Bool)
  | functionDef (definition : FunctionDef)
  | classDef (definition : ClassDef)
  | matchBlock (subject : Expr) (cases : List MatchCase)
  | returnStmt (value : Option Expr)
  | raiseStmt (exc cause : Option Expr)
  | deleteStmt (targets : List Expr)
  | assertStmt (test : Expr) (msg : Option Expr)
  | importStmt (names : List ImportName)
  /-- The module path has its leading dots when the import is relative. -/
  | importFrom (path : String) (names : List ImportName) (wildcard : Bool)
  | globalStmt (names : List String)
  | nonlocalStmt (names : List String)
  | passStmt
  | breakStmt
  | continueStmt
  /-- A comment without its hash. -/
  | comment (text : String)
  | unsupported (kind text : String)

structure Stmt where
  kind : StmtKind
  span : Span

/-- A test with the block it guards. -/
structure Branch where
  test : Expr
  body : List Stmt

/-- An `except` clause; without types it takes every exception. -/
structure Handler where
  types : List Expr
  name : Option String
  body : List Stmt
  span : Span

structure MatchCase where
  pattern : Pattern
  guard : Option Expr
  body : List Stmt
  span : Span

structure FunctionDef where
  name : String
  params : List Param
  returns : Option Expr
  body : List Stmt
  decorators : List Expr
  isAsync : Bool

structure ClassDef where
  name : String
  bases : List Arg
  body : List Stmt
  decorators : List Expr

end

instance : Inhabited StmtKind := ⟨.passStmt⟩

structure Module where
  body : List Stmt

end PythonToCSharp.Python
