import PythonToCSharp.CSharp.Level

/-!
C# expressions as trees without parentheses, and the level at which each binds.

Names and literals are held as they are spelled. Some constructs are no C# but stand where the
source had something that C# lacks: a spread operand, `yield` inside an expression, a range with a
step, a text kept as written, and a place where there is nothing.
-/

namespace PythonToCSharp.CSharp

inductive BinaryOp where
  | add
  | sub
  | mul
  | div
  | mod
  | leftShift
  | rightShift
  | bitOr
  | bitXor
  | bitAnd
  | and
  | or
  | eq
  | ne
  | lt
  | le
  | gt
  | ge
  deriving DecidableEq, Repr

def BinaryOp.symbol : BinaryOp → String
  | .add => "+"
  | .sub => "-"
  | .mul => "*"
  | .div => "/"
  | .mod => "%"
  | .leftShift => "<<"
  | .rightShift => ">>"
  | .bitOr => "|"
  | .bitXor => "^"
  | .bitAnd => "&"
  | .and => "&&"
  | .or => "||"
  | .eq => "=="
  | .ne => "!="
  | .lt => "<"
  | .le => "<="
  | .gt => ">"
  | .ge => ">="

/-- The level of an operator. All of them take the tighter operand on the right. -/
def BinaryOp.level : BinaryOp → Level
  | .add | .sub => .additive
  | .mul | .div | .mod => .multiplicative
  | .leftShift | .rightShift => .shift
  | .bitOr => .bitOr
  | .bitXor => .bitXor
  | .bitAnd => .bitAnd
  | .and => .and
  | .or => .or
  | .eq | .ne => .equality
  | .lt | .le | .gt | .ge => .relational

inductive UnaryOp where
  | neg
  | pos
  | invert
  | not
  deriving DecidableEq, Repr

def UnaryOp.symbol : UnaryOp → Char
  | .neg => '-'
  | .pos => '+'
  | .invert => '~'
  | .not => '!'

/-- Whether the operator written twice would be read as one token. -/
def UnaryOp.isSign : UnaryOp → Bool
  | .neg | .pos => true
  | .invert | .not => false

mutual

inductive Expr where
  /-- An identifier, `this`, or a dotted or generic name, as spelled. -/
  | name (text : String)
  /-- A literal, as spelled. -/
  | literal (text : String)
  /-- Source text kept as written. -/
  | verbatim (text : String)
  | interpolated (raw : Bool) (parts : List InterpolatedPart)
  | binary (op : BinaryOp) (left right : Expr)
  | unary (op : UnaryOp) (operand : Expr)
  | conditional (test body orelse : Expr)
  | lambda (params : List String) (body : Expr)
  /-- `target = value` inside an expression. -/
  | assign (target : String) (value : Expr)
  | member (value : Expr) (name : String)
  | index (value : Expr) (arguments : List Expr)
  | range (lower upper step : Option Expr)
  | call (func : Expr) (arguments : List Argument)
  /-- `new T(arguments)` -/
  | create (type : Expr) (arguments : List Argument)
  /-- `new T` with its elements, or `new T()` without any. -/
  | collection (type : String) (items : List Expr)
  /-- `new T` with its entries, or `new T()` without any. -/
  | dictionary (type : String) (entries : List Entry)
  /-- Expressions between one pair of parentheses. -/
  | tuple (items : List Expr)
  /-- A query that selects elements, or pairs when there is a second value. -/
  | query (clauses : List Clause) (element : Expr) (value : Option Expr)
  | await (value : Expr)
  | yield (value : Option Expr)
  | yieldFrom (value : Expr)
  | spread (value : Expr)
  /-- A place where there is no expression. -/
  | missing

inductive InterpolatedPart where
  /-- Text as it stands between the quotes. -/
  | text (segment : String)
  | hole (value : Expr) (format : Option String)

inductive Argument where
  | positional (value : Expr)
  | named (name : String) (value : Expr)

/-- An entry of a new dictionary: a pair, or an expression by itself. -/
inductive Entry where
  | pair (key value : Expr)
  | bare (value : Expr)

inductive Clause where
  /-- `from target in source` -/
  | from_ (target source : Expr)
  /-- `let target = value` -/
  | let_ (target value : Expr)
  /-- `where test` -/
  | where_ (test : Expr)

end

instance : Inhabited Expr := ⟨.missing⟩

namespace Expr

def level : Expr → Level
  | .name _ | .literal _ | .verbatim _ | .interpolated _ _ => .primary
  | .member _ _ | .index _ _ | .call _ _ | .create _ _ => .primary
  | .collection _ _ | .dictionary _ _ | .tuple _ => .primary
  | .unary _ _ | .await _ | .spread _ => .unary
  | .binary op _ _ => op.level
  | .missing => .and
  | .conditional _ _ _ => .conditional
  | .lambda _ _ | .assign _ _ | .range _ _ _ | .query _ _ _ | .yield _ | .yieldFrom _ => .lowest

def null : Expr := .literal "null"

def ofBool (value : Bool) : Expr :=
  .literal (if value then "true" else "false")

/-- A call of a function by its name, with arguments by position. -/
def apply (func : String) (arguments : List Expr) : Expr :=
  .call (.name func) (arguments.map .positional)

end Expr

end PythonToCSharp.CSharp
