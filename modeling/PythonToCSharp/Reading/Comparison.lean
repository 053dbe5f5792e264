import PythonToCSharp.Reading.Basic
import PythonToCSharp.Text.Blank

/-!
Comparison chains. The operands are the named children of the node; the operators stand between them
as tokens, where `not in` and `is not` may be one token or two.
-/

namespace PythonToCSharp.Reading

open Python Concrete

/-- A comparison chain that is being read. -/
structure Chain where
  operands : List Expr := []
  operators : List CmpOp := []
  /-- A `not` has been read whose `in` is still to come. -/
  pendingNot : Bool := false

/-- Why a node is no comparison chain: an operand cannot be read, or an operator is not known. -/
inductive ChainFault where
  | unreadable
  | unknownOperator

/-- Whether the last thing read is the operator `is`. -/
def Chain.endsInIs (chain : Chain) : Bool :=
  chain.operands.length == chain.operators.length && chain.operators.getLast? == some .is

/-- The chain with one more token, its words parted by single spaces. -/
def Chain.pushToken (chain : Chain) (symbol : String) : Option Chain :=
  if symbol = "not" then
    if chain.endsInIs then some { chain with operators := chain.operators.dropLast ++ [.isNot] }
    else some { chain with pendingNot := true }
  else if symbol = "in" ∧ chain.pendingNot = true then
    some { chain with operators := chain.operators ++ [.notIn], pendingNot := false }
  else
    (CmpOp.ofSymbol? symbol).map fun op => { chain with operators := chain.operators ++ [op] }

/-- The chain that the children of a node make. -/
def readChain : Chain → List ReadTree → Except ChainFault Chain
  | chain, [] => .ok chain
  | chain, t :: rest =>
    if t.info.extra then readChain chain rest
    else if t.info.named then
      match asExpr t with
      | some e => readChain { chain with operands := chain.operands ++ [e] } rest
      | none => .error .unreadable
    else
      match chain.pushToken (Text.unspace t.text) with
      | some chain => readChain chain rest
      | none => .error .unknownOperator

def readComparison (info : Info) (children : List ReadTree) : Option Expr :=
  match readChain {} children with
  | .error .unreadable => none
  | .error .unknownOperator => some (unsupportedExpr info)
  | .ok chain =>
    match chain.operands with
    | [] => none
    | left :: rest =>
      match chain.operators.zip rest with
      | [] => none
      | comparisons => some (.compare left comparisons)

end PythonToCSharp.Reading
