import PythonToCSharp.Reading.Comparison
import PythonToCSharp.Reading.StringToken

/-!
Nodes as expressions, and the lists that expressions are made of: arguments, parameters, dictionary
entries and the clauses of comprehensions. A kind of node that is not an expression is kept as it is
written.
-/

namespace PythonToCSharp.Reading

open Python Concrete

/-- A number as written; one that ends in `j` is imaginary. -/
def readNumber (info : Info) : Expr :=
  match info.text.toList.getLast? with
  | some 'j' => .imaginary info.text
  | some 'J' => .imaginary info.text
  | _ => if info.kind = "integer" then .int info.text else .float info.text

/-- Adjacent strings as a sum, from the left. -/
def readConcatenation (children : List ReadTree) : Option Expr := do
  match ← asExprs (parts children) with
  | [] => none
  | first :: rest => some (rest.foldl (fun sum e => .binary sum .add e) first)

/-- The bounds of a slice: the part after as many colons as `index` says is the one at that place.
-/
def readSlice : Nat → Option Expr → Option Expr → Option Expr → List ReadTree → Option Expr
  | _, lower, upper, step, [] => some (.slice lower upper step)
  | index, lower, upper, step, t :: rest =>
    if t.kind = ":" then readSlice (index + 1) lower upper step rest
    else if t.info.named && !t.info.extra && index < 3 then do
      let e ← asExpr t
      match index with
      | 0 => readSlice index (some e) upper step rest
      | 1 => readSlice index lower (some e) step rest
      | _ => readSlice index lower upper (some e) rest
    else readSlice index lower upper step rest

def readArgument (t : ReadTree) : Option Arg :=
  match t.kind with
  | "keyword_argument" => do
    return .keyword (← textField "name" t.children) (← exprField "value" t.children)
  | "list_splat" => (firstExpr t.children).map .star
  | "parenthesized_list_splat" => (firstExpr t.children).map .star
  | "dictionary_splat" => (firstExpr t.children).map .doubleStar
  | _ => (asExpr t).map .positional

def readArguments (t : ReadTree) : Option (List Arg) :=
  (parts t.children).mapM readArgument

/-- A call; a generator may stand as its only argument without parentheses of its own. -/
def readCall (children : List ReadTree) : Option Expr := do
  let func ← exprField "function" children
  let arguments ← field? "arguments" children
  if arguments.kind = "generator_expression" then
    return .call func [.positional (← asExpr arguments)]
  else
    return .call func (← readArguments arguments)

def readDictItem (t : ReadTree) : Option DictItem :=
  match t.kind with
  | "pair" => do return .pair (← exprField "key" t.children) (← exprField "value" t.children)
  | "dictionary_splat" => (firstExpr t.children).map .splat
  | _ => none

/-- A clause of a comprehension; other children of the comprehension are passed over. -/
def readClause (t : ReadTree) : Option (Option Clause) :=
  match t.kind with
  | "for_in_clause" => do
    return some (.forIn (← exprField "left" t.children) (← asTuple (fields "right" t.children)))
  | "if_clause" => (firstExpr t.children).map fun test => some (.onlyIf test)
  | _ => some none

def readComprehension (kind : ComprehensionKind) (children : List ReadTree) : Option Expr := do
  let body ← field? "body" children
  let clauses ← (parts children).mapM readClause
  match kind with
  | .dict =>
    return .comprehension kind (← exprField "key" body.children)
      (some (← exprField "value" body.children)) (clauses.filterMap id)
  | _ => return .comprehension kind (← asExpr body) none (clauses.filterMap id)

def plainParam (name : String) : Param :=
  ⟨name, .normal, none, none⟩

/-- A parameter that may be starred, without its stars. -/
def readStarredParam (t : ReadTree) : Param :=
  let kind : ParamKind :=
    match t.kind with
    | "list_splat_pattern" => .varArgs
    | "dictionary_splat_pattern" => .kwArgs
    | _ => .normal
  ⟨String.ofList (Text.trimChars (t.text.toList.dropWhile (· = '*'))), kind, none, none⟩

/-- A parameter; the separators `*` and `/` are none. -/
def readParam (t : ReadTree) : Option (Option Param) :=
  match t.kind with
  | "default_parameter" => do
    let value ← exprField "value" t.children
    return some { plainParam (← textField "name" t.children) with default := some value }
  | "typed_parameter" => do
    let inner ← part? t.children
    return some { readStarredParam inner with hint := some (← exprField "type" t.children) }
  | "typed_default_parameter" => do
    let hint ← exprField "type" t.children
    let value ← exprField "value" t.children
    return some ⟨← textField "name" t.children, .normal, some hint, some value⟩
  | "list_splat_pattern" => some (some (readStarredParam t))
  | "dictionary_splat_pattern" => some (some (readStarredParam t))
  | "keyword_separator" => some none
  | "positional_separator" => some none
  | _ => some (some (plainParam t.text))

def readParams (t : ReadTree) : Option (List Param) :=
  ((parts t.children).mapM readParam).map (List.filterMap id)

/-- The parameters of a function or a lambda, which may have no parameter list. -/
def readParamsField (children : List ReadTree) : Option (List Param) :=
  match field? "parameters" children with
  | none => some []
  | some t => readParams t

/-- `yield`, `yield value` or `yield from value`. -/
def readYield (children : List ReadTree) : Option Expr :=
  if hasToken "from" children then (firstExpr children).map .yieldFrom
  else (optionally asExpr (part? children)).map .yield

def readExpr (info : Info) (children : List ReadTree) : Option Expr :=
  match info.kind with
  | "identifier" | "keyword_identifier" => some (.name info.text)
  | "integer" | "float" => some (readNumber info)
  | "string" => readString info children
  | "concatenated_string" => readConcatenation children
  | "true" => some (.bool true)
  | "false" => some (.bool false)
  | "none" => some .none
  | "ellipsis" => some .ellipsis
  | "binary_operator" => do
    match BinaryOp.ofSymbol? (← textField "operator" children) with
    | none => return unsupportedExpr info
    | some op => return .binary (← exprField "left" children) op (← exprField "right" children)
  | "unary_operator" => do
    match UnaryOp.ofSymbol? (← textField "operator" children) with
    | none => return unsupportedExpr info
    | some op => return .unary op (← exprField "argument" children)
  | "not_operator" => (exprField "argument" children).map (.unary .not)
  | "boolean_operator" => do
    match BoolOp.ofSymbol? (← textField "operator" children) with
    | none => return unsupportedExpr info
    | some op => return .boolean op (← exprField "left" children) (← exprField "right" children)
  | "comparison_operator" => readComparison info children
  | "conditional_expression" => do
    match ← asExprs (parts children) with
    | [body, test, orelse] => return .ifExp test body orelse
    | _ => none
  | "lambda" => do return .lambda (← readParamsField children) (← exprField "body" children)
  | "named_expression" => do
    return .named (← textField "name" children) (← exprField "value" children)
  | "attribute" => do
    return .attribute (← exprField "object" children) (← textField "attribute" children)
  | "subscript" => do
    return .subscript (← exprField "value" children) (← asExprs (fields "subscript" children))
  | "slice" => readSlice 0 none none none children
  | "call" => readCall children
  | "list" | "list_pattern" => (asExprs (parts children)).map .list
  | "set" => (asExprs (parts children)).map .set
  | "tuple" | "expression_list" | "pattern_list" | "tuple_pattern" =>
    (asExprs (parts children)).map .tuple
  | "dictionary" => ((parts children).mapM readDictItem).map .dict
  | "list_comprehension" => readComprehension .list children
  | "set_comprehension" => readComprehension .set children
  | "dictionary_comprehension" => readComprehension .dict children
  | "generator_expression" => readComprehension .generator children
  | "list_splat" | "list_splat_pattern" | "parenthesized_list_splat" =>
    (firstExpr children).map .starred
  | "parenthesized_expression" | "type" | "expression" => firstExpr children
  | "await" => (firstExpr children).map .await
  | "yield" => readYield children
  | _ => some (unsupportedExpr info)

end PythonToCSharp.Reading
