/-!
Python's operators and the words they are written with.
-/

namespace PythonToCSharp.Python

/-- The operators that take two numbers (or other values) and give one. -/
inductive BinaryOp where
  | add
  | sub
  | mul
  | matMul
  | div
  | floorDiv
  | mod
  | pow
  | leftShift
  | rightShift
  | bitOr
  | bitXor
  | bitAnd
  deriving DecidableEq, Repr

def BinaryOp.symbol : BinaryOp → String
  | .add => "+"
  | .sub => "-"
  | .mul => "*"
  | .matMul => "@"
  | .div => "/"
  | .floorDiv => "//"
  | .mod => "%"
  | .pow => "**"
  | .leftShift => "<<"
  | .rightShift => ">>"
  | .bitOr => "|"
  | .bitXor => "^"
  | .bitAnd => "&"

def BinaryOp.ofSymbol? : String → Option BinaryOp
  | "+" => some .add
  | "-" => some .sub
  | "*" => some .mul
  | "@" => some .matMul
  | "/" => some .div
  | "//" => some .floorDiv
  | "%" => some .mod
  | "**" => some .pow
  | "<<" => some .leftShift
  | ">>" => some .rightShift
  | "|" => some .bitOr
  | "^" => some .bitXor
  | "&" => some .bitAnd
  | _ => none

/-- The operator of an assignment that is written so: `+=`, `//=` and so on. -/
def BinaryOp.ofAssignment? (symbol : String) : Option BinaryOp :=
  match symbol.toList.reverse with
  | '=' :: rest => BinaryOp.ofSymbol? (String.ofList rest.reverse)
  | _ => none

inductive UnaryOp where
  | neg
  | pos
  | invert
  | not
  deriving DecidableEq, Repr

/-- The sign operators that are written so. -/
def UnaryOp.ofSymbol? : String → Option UnaryOp
  | "-" => some .neg
  | "+" => some .pos
  | "~" => some .invert
  | _ => none

/-- The operators that stop at the first operand that decides. -/
inductive BoolOp where
  | and
  | or
  deriving DecidableEq, Repr

def BoolOp.ofSymbol? : String → Option BoolOp
  | "and" => some .and
  | "or" => some .or
  | _ => none

/-- The operators of a comparison chain. -/
inductive CmpOp where
  | eq
  | notEq
  | lt
  | le
  | gt
  | ge
  | is
  | isNot
  | isIn
  | notIn
  deriving DecidableEq, Repr

/-- The comparison that is written so, with one space between two words; `<>` is the old form of
`!=`. -/
def CmpOp.ofSymbol? : String → Option CmpOp
  | "==" => some .eq
  | "!=" => some .notEq
  | "<>" => some .notEq
  | "<" => some .lt
  | "<=" => some .le
  | ">" => some .gt
  | ">=" => some .ge
  | "is" => some .is
  | "is not" => some .isNot
  | "in" => some .isIn
  | "not in" => some .notIn
  | _ => none

end PythonToCSharp.Python
