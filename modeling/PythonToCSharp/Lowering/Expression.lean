import PythonToCSharp.CSharp.Literal
import PythonToCSharp.Lowering.State

/-!
Python expressions as C# expressions.

Operators that C# lacks become calls of helpers. A comparison chain becomes a conjunction, whose
middle operands are lowered twice. What C# cannot express is kept as close to the source as
possible, with a warning.
-/

namespace PythonToCSharp.Lowering

open CSharp (escapeIdentifier)

/-- What becomes of a Python operator: an operator of C#, or a call of a helper. -/
inductive Operator where
  | native (op : CSharp.BinaryOp)
  | helper (name : String)

def operatorFor (names : LibraryNames) : Python.BinaryOp → Operator
  | .add => .native .add
  | .sub => .native .sub
  | .mul => .native .mul
  | .div => .native .div
  | .mod => .native .mod
  | .leftShift => .native .leftShift
  | .rightShift => .native .rightShift
  | .bitOr => .native .bitOr
  | .bitXor => .native .bitXor
  | .bitAnd => .native .bitAnd
  | .pow => .helper names.powFn
  | .floorDiv => .helper names.floordivFn
  | .matMul => .helper names.matmulFn

def Operator.apply (left right : CSharp.Expr) : Operator → CSharp.Expr
  | .native op => .binary op left right
  | .helper name => .apply name [left, right]

def unaryOp : Python.UnaryOp → CSharp.UnaryOp
  | .neg => .neg
  | .pos => .pos
  | .invert => .invert
  | .not => .not

def boolOp : Python.BoolOp → CSharp.BinaryOp
  | .and => .and
  | .or => .or

/-- A name: the receiver of the method is `this`. -/
def lowerName (id : String) : Render CSharp.Expr := do
  if (← receiver) = some id then return .name "this" else return .name (escapeIdentifier id)

/-- Two operands, the left one lowered first, under an operator. -/
def infixed (op : CSharp.BinaryOp) (left right : Render CSharp.Expr) : Render CSharp.Expr := do
  let left ← left
  let right ← right
  return .binary op left right

def sameObject (left right : Render CSharp.Expr) : Render CSharp.Expr := do
  let left ← left
  let right ← right
  return .apply "ReferenceEquals" [left, right]

/-- Whether a container, which is lowered first, holds an item. -/
def contained (item container : Render CSharp.Expr) : Render CSharp.Expr := do
  let container ← container
  let item ← item
  return .call (.member container "Contains") [.positional item]

/-- One comparison; `withNone` says that the right operand is `None`, which `is` compares by value.
-/
def compared (op : Python.CmpOp) (withNone : Bool) (left right : Render CSharp.Expr) :
    Render CSharp.Expr :=
  match op with
  | .eq => infixed .eq left right
  | .notEq => infixed .ne left right
  | .lt => infixed .lt left right
  | .le => infixed .le left right
  | .gt => infixed .gt left right
  | .ge => infixed .ge left right
  | .is => if withNone then infixed .eq left right else sameObject left right
  | .isNot =>
    if withNone then infixed .ne left right
    else do return .unary .not (← sameObject left right)
  | .isIn => contained left right
  | .notIn => do return .unary .not (← contained left right)

/-- Several conditions as one; without any there is nothing to write. -/
def conjunction : List CSharp.Expr → CSharp.Expr
  | [] => .missing
  | first :: rest => rest.foldl (.binary .and) first

def isNone : Python.Expr → Bool
  | .none => true
  | _ => false

/-- The parameters of a lambda, of which C# takes only the names. -/
def lowerLambdaParams : List Python.Param → Render (List String)
  | [] => return []
  | param :: rest => do
    if param.default.isSome || param.kind != .normal then
      warn "lambda_parameters"
        ("lambda parameter `" ++ param.name ++ "` loses its default or unpacking")
    return escapeIdentifier param.name :: (← lowerLambdaParams rest)

/-- A tuple: one with less than two elements is an object of the runtime library. -/
def tupleOf (names : LibraryNames) : List CSharp.Expr → CSharp.Expr
  | [] => .create (.name names.tupleType) []
  | [item] => .create (.name names.tupleType) [.positional item]
  | items => .tuple items

def imaginary (magnitude : String) : CSharp.Expr :=
  .create (.member (.member (.name "System") "Numerics") "Complex")
    [.positional (.literal "0"), .positional (.literal magnitude)]

/-- The elements of a range variable, each bound to a target. -/
def unpacked (range : String) (targets : List CSharp.Expr) : List CSharp.Clause :=
  targets.mapIdx fun i target => .let_ target (.member (.name range) ("Item" ++ toString (i + 1)))

mutual

def lowerExpr (names : LibraryNames) : Python.Expr → Render CSharp.Expr
  | .name id => lowerName id
  | .int text => return .literal (CSharp.intLiteral text)
  | .float text => return .literal (CSharp.floatLiteral text)
  | .imaginary text => return imaginary (CSharp.imaginaryLiteral text)
  | .str literal => return .literal (CSharp.stringLiteral literal)
  | .fstring parts raw => do return .interpolated raw (← lowerParts names raw parts)
  | .bool value => return .ofBool value
  | .none => return .null
  | .ellipsis => do
    warn "ellipsis" "`...` has no C# value; emitted null"
    return .null
  | .binary left op right => do
    let left ← lowerExpr names left
    let right ← lowerExpr names right
    return (operatorFor names op).apply left right
  | .unary op operand => do return .unary (unaryOp op) (← lowerExpr names operand)
  | .boolean op left right => infixed (boolOp op) (lowerExpr names left) (lowerExpr names right)
  | .compare left comparisons => do
    return conjunction (← lowerComparisons names (lowerExpr names left) comparisons)
  | .ifExp test body orelse => do
    let test ← lowerExpr names test
    let body ← lowerExpr names body
    let orelse ← lowerExpr names orelse
    return .conditional test body orelse
  | .lambda params body => do
    let params ← lowerLambdaParams params
    return .lambda params (← lowerExpr names body)
  | .named target value => do
    modifyFrame (·.record target)
    let target ← lowerName target
    return .assign target.text (← lowerExpr names value)
  | .attribute value attr => do
    return .member (← lowerExpr names value) (escapeIdentifier attr)
  | .subscript value index => do
    let value ← lowerExpr names value
    return .index value (← lowerList names index)
  | .slice lower upper step => do
    let lower ← lowerOption names lower
    let upper ← lowerOption names upper
    let step ← lowerOption names step
    return .range lower upper step
  | .call func args => do
    let func ← lowerExpr names func
    return .call func (← lowerArgs names args)
  | .list items => do return .collection names.listType (← lowerList names items)
  | .set items => do return .collection names.setType (← lowerList names items)
  | .tuple items => do return tupleOf names (← lowerList names items)
  | .dict items => do return .dictionary names.dictType (← lowerItems names items)
  | .comprehension kind element value clauses => do
    let clauses ← lowerClauses names clauses
    let element ← lowerExpr names element
    match kind with
    | .dict => return .query clauses element (← lowerOption names value)
    | _ => return .query clauses element none
  | .await value => do return .await (← lowerExpr names value)
  | .yield value => do
    warn "yield" "yield is only translated as a statement; expression kept as written"
    return .yield (← lowerOption names value)
  | .yieldFrom value => do
    warn "yield" "yield from is only translated as a statement; expression kept as written"
    return .yieldFrom (← lowerExpr names value)
  | .starred value => do
    warn "list_splat" "unpacking has no C# equivalent; operand kept"
    return .spread (← lowerExpr names value)
  | .unsupported kind text span => do
    report .warning kind span "no C# translation; source kept verbatim"
    return .verbatim text

def lowerList (names : LibraryNames) : List Python.Expr → Render (List CSharp.Expr)
  | [] => return []
  | e :: rest => do
    let e ← lowerExpr names e
    return e :: (← lowerList names rest)

def lowerOption (names : LibraryNames) : Option Python.Expr → Render (Option CSharp.Expr)
  | none => return none
  | some e => do return some (← lowerExpr names e)

/-- The links of a comparison chain behind `left`. -/
def lowerComparisons (names : LibraryNames) (left : Render CSharp.Expr) :
    List (Python.CmpOp × Python.Expr) → Render (List CSharp.Expr)
  | [] => return []
  | (op, right) :: rest => do
    let piece ← compared op (isNone right) left (lowerExpr names right)
    return piece :: (← lowerComparisons names (lowerExpr names right) rest)

def lowerParts (names : LibraryNames) (raw : Bool) :
    List Python.FStringPart → Render (List CSharp.InterpolatedPart)
  | [] => return []
  | .literal text :: rest => do
    return .text (CSharp.interpolatedSegment text raw) :: (← lowerParts names raw rest)
  | .interpolation e formatSpec :: rest => do
    let e ← lowerExpr names e
    return .hole e formatSpec :: (← lowerParts names raw rest)

/-- Arguments. A mapping cannot be unpacked and is passed as it is. -/
def lowerArgs (names : LibraryNames) : List Python.Arg → Render (List CSharp.Argument)
  | [] => return []
  | .positional value :: rest => do
    let value ← lowerExpr names value
    return .positional value :: (← lowerArgs names rest)
  | .keyword name value :: rest => do
    let value ← lowerExpr names value
    return .named (escapeIdentifier name) value :: (← lowerArgs names rest)
  | .star value :: rest => do
    let value ← lowerExpr names value
    return .positional value :: (← lowerArgs names rest)
  | .doubleStar value :: rest => do
    warn "dictionary_splat" "keyword unpacking has no C# equivalent; mapping passed positionally"
    let value ← lowerExpr names value
    return .positional value :: (← lowerArgs names rest)

def lowerItems (names : LibraryNames) : List Python.DictItem → Render (List CSharp.Entry)
  | [] => return []
  | .pair key value :: rest => do
    let key ← lowerExpr names key
    let value ← lowerExpr names value
    return .pair key value :: (← lowerItems names rest)
  | .splat value :: rest => do
    warn "dictionary_splat" "mapping unpacking has no C# equivalent; operand kept"
    let value ← lowerExpr names value
    return .bare value :: (← lowerItems names rest)

/-- The clauses of a comprehension. Several targets are taken from the elements of a range variable.
-/
def lowerClauses (names : LibraryNames) : List Python.Clause → Render (List CSharp.Clause)
  | [] => return []
  | .forIn (.tuple targets) iter :: rest => do
    let iter ← lowerExpr names iter
    let range ← fresh "_t"
    let targets ← lowerList names targets
    return .from_ (.name range) iter :: unpacked range targets ++ (← lowerClauses names rest)
  | .forIn (.list targets) iter :: rest => do
    let iter ← lowerExpr names iter
    let range ← fresh "_t"
    let targets ← lowerList names targets
    return .from_ (.name range) iter :: unpacked range targets ++ (← lowerClauses names rest)
  | .forIn target iter :: rest => do
    let iter ← lowerExpr names iter
    let target ← lowerExpr names target
    return .from_ target iter :: (← lowerClauses names rest)
  | .onlyIf test :: rest => do
    let test ← lowerExpr names test
    return .where_ test :: (← lowerClauses names rest)

end

end PythonToCSharp.Lowering
