import PythonToCSharp.Json.Value
import PythonToCSharp.Python.Tree

/-!
The typed tree as JSON. A structure is an object with its fields in order; an alternative without
parts is its name, one with parts an object whose only field is its name.
-/

namespace PythonToCSharp.Python

private abbrev text : String → Json := Json.str

private def texts (items : List String) : Json :=
  Json.ofList Json.str items

def Span.toJson (span : Span) : Json :=
  .obj [("line", .num span.line), ("column", .num span.column)]

/-- The operator's name in the tree. -/
def BinaryOp.label : BinaryOp → String
  | .add => "Add"
  | .sub => "Sub"
  | .mul => "Mul"
  | .matMul => "MatMul"
  | .div => "Div"
  | .floorDiv => "FloorDiv"
  | .mod => "Mod"
  | .pow => "Pow"
  | .leftShift => "LShift"
  | .rightShift => "RShift"
  | .bitOr => "BitOr"
  | .bitXor => "BitXor"
  | .bitAnd => "BitAnd"

def UnaryOp.label : UnaryOp → String
  | .neg => "Neg"
  | .pos => "Pos"
  | .invert => "Invert"
  | .not => "Not"

def BoolOp.label : BoolOp → String
  | .and => "And"
  | .or => "Or"

def CmpOp.label : CmpOp → String
  | .eq => "Eq"
  | .notEq => "NotEq"
  | .lt => "Lt"
  | .le => "LtE"
  | .gt => "Gt"
  | .ge => "GtE"
  | .is => "Is"
  | .isNot => "IsNot"
  | .isIn => "In"
  | .notIn => "NotIn"

def ParamKind.label : ParamKind → String
  | .normal => "Normal"
  | .varArgs => "VarArgs"
  | .kwArgs => "KwArgs"

def ComprehensionKind.label : ComprehensionKind → String
  | .list => "List"
  | .set => "Set"
  | .dict => "Dict"
  | .generator => "Generator"

/-- The name of the alternative an expression belongs to. -/
def Expr.variant : Expr → String
  | .name _ => "Name"
  | .int _ => "Int"
  | .float _ => "Float"
  | .imaginary _ => "Imaginary"
  | .str _ => "Str"
  | .fstring _ _ => "FString"
  | .bool _ => "Bool"
  | .none => "None"
  | .ellipsis => "Ellipsis"
  | .binary _ _ _ => "BinOp"
  | .unary _ _ => "UnaryOp"
  | .boolean _ _ _ => "BoolOp"
  | .compare _ _ => "Compare"
  | .ifExp _ _ _ => "IfExp"
  | .lambda _ _ => "Lambda"
  | .named _ _ => "NamedExpr"
  | .attribute _ _ => "Attribute"
  | .subscript _ _ => "Subscript"
  | .slice _ _ _ => "Slice"
  | .call _ _ => "Call"
  | .list _ => "List"
  | .tuple _ => "Tuple"
  | .set _ => "Set"
  | .dict _ => "Dict"
  | .comprehension _ _ _ _ => "Comprehension"
  | .await _ => "Await"
  | .yield _ => "Yield"
  | .yieldFrom _ => "YieldFrom"
  | .starred _ => "Starred"
  | .unsupported _ _ _ => "Unsupported"

mutual

def Expr.toJson : Expr → Json
  | .name id => .tagged "Name" (text id)
  | .int value => .tagged "Int" (text value)
  | .float value => .tagged "Float" (text value)
  | .imaginary value => .tagged "Imaginary" (text value)
  | .str ⟨body, raw, bytes⟩ =>
    .tagged "Str" (.obj [("body", text body), ("raw", .bool raw), ("bytes", .bool bytes)])
  | .fstring parts raw =>
    .tagged "FString" (.obj [("parts", .arr (partsToJson parts)), ("raw", .bool raw)])
  | .bool value => .tagged "Bool" (.bool value)
  | .none => text "None"
  | .ellipsis => text "Ellipsis"
  | .binary left op right =>
    .tagged "BinOp" (.obj [("left", left.toJson), ("op", text op.label), ("right", right.toJson)])
  | .unary op operand =>
    .tagged "UnaryOp" (.obj [("op", text op.label), ("operand", operand.toJson)])
  | .boolean op left right =>
    .tagged "BoolOp" (.obj [("op", text op.label), ("left", left.toJson), ("right", right.toJson)])
  | .compare left comparisons =>
    .tagged "Compare"
      (.obj [("left", left.toJson), ("comparisons", .arr (comparisonsToJson comparisons))])
  | .ifExp test body orelse =>
    .tagged "IfExp"
      (.obj [("test", test.toJson), ("body", body.toJson), ("orelse", orelse.toJson)])
  | .lambda params body =>
    .tagged "Lambda" (.obj [("params", .arr (paramsToJson params)), ("body", body.toJson)])
  | .named target value =>
    .tagged "NamedExpr" (.obj [("target", text target), ("value", value.toJson)])
  | .attribute value attr =>
    .tagged "Attribute" (.obj [("value", value.toJson), ("attr", text attr)])
  | .subscript value index =>
    .tagged "Subscript" (.obj [("value", value.toJson), ("index", .arr (listToJson index))])
  | .slice lower upper step =>
    .tagged "Slice"
      (.obj [("lower", optionToJson lower), ("upper", optionToJson upper),
        ("step", optionToJson step)])
  | .call func args =>
    .tagged "Call" (.obj [("func", func.toJson), ("args", .arr (argsToJson args))])
  | .list items => .tagged "List" (.arr (listToJson items))
  | .tuple items => .tagged "Tuple" (.arr (listToJson items))
  | .set items => .tagged "Set" (.arr (listToJson items))
  | .dict items => .tagged "Dict" (.arr (itemsToJson items))
  | .comprehension kind element value clauses =>
    .tagged "Comprehension"
      (.obj [("kind", text kind.label), ("element", element.toJson), ("value", optionToJson value),
        ("clauses", .arr (clausesToJson clauses))])
  | .await value => .tagged "Await" value.toJson
  | .yield value => .tagged "Yield" (optionToJson value)
  | .yieldFrom value => .tagged "YieldFrom" value.toJson
  | .starred value => .tagged "Starred" value.toJson
  | .unsupported kind source span =>
    .tagged "Unsupported" (.obj [("kind", text kind), ("text", text source), ("span", span.toJson)])

def listToJson : List Expr → List Json
  | [] => []
  | e :: rest => e.toJson :: listToJson rest

def optionToJson : Option Expr → Json
  | none => .null
  | some e => e.toJson

def comparisonsToJson : List (CmpOp × Expr) → List Json
  | [] => []
  | (op, e) :: rest => .arr [text op.label, e.toJson] :: comparisonsToJson rest

def partsToJson : List FStringPart → List Json
  | [] => []
  | .literal source :: rest => .tagged "Literal" (text source) :: partsToJson rest
  | .interpolation e formatSpec :: rest =>
    .tagged "Interpolation"
      (.obj [("expr", e.toJson), ("format_spec", Json.ofOption text formatSpec)]) ::
        partsToJson rest

def argsToJson : List Arg → List Json
  | [] => []
  | .positional e :: rest => .tagged "Positional" e.toJson :: argsToJson rest
  | .keyword name e :: rest =>
    .tagged "Keyword" (.obj [("name", text name), ("value", e.toJson)]) :: argsToJson rest
  | .star e :: rest => .tagged "Star" e.toJson :: argsToJson rest
  | .doubleStar e :: rest => .tagged "DoubleStar" e.toJson :: argsToJson rest

def itemsToJson : List DictItem → List Json
  | [] => []
  | .pair key value :: rest =>
    .tagged "Pair" (.obj [("key", key.toJson), ("value", value.toJson)]) :: itemsToJson rest
  | .splat e :: rest => .tagged "Splat" e.toJson :: itemsToJson rest

def clausesToJson : List Clause → List Json
  | [] => []
  | .forIn target iter :: rest =>
    .tagged "For" (.obj [("target", target.toJson), ("iter", iter.toJson)]) :: clausesToJson rest
  | .onlyIf test :: rest => .tagged "If" test.toJson :: clausesToJson rest

def paramsToJson : List Param → List Json
  | [] => []
  | ⟨name, kind, hint, default⟩ :: rest =>
    .obj [("name", text name), ("kind", text kind.label), ("annotation", optionToJson hint),
      ("default", optionToJson default)] :: paramsToJson rest

end

mutual

def Pattern.toJson : Pattern → Json
  | .wildcard => text "Wildcard"
  | .capture name => .tagged "Capture" (text name)
  | .literal value => .tagged "Literal" value.toJson
  | .value path => .tagged "Value" (text path)
  | .sequence items => .tagged "Sequence" (.arr (patternsToJson items))
  | .star name => .tagged "Star" (Json.ofOption text name)
  | .mapping items rest =>
    .tagged "Mapping"
      (.obj [("items", .arr (entriesToJson items)), ("rest", Json.ofOption text rest)])
  | .classPattern cls positional keywords =>
    .tagged "Class"
      (.obj [("cls", text cls), ("positional", .arr (patternsToJson positional)),
        ("keywords", .arr (keywordsToJson keywords))])
  | .either alternatives => .tagged "Or" (.arr (patternsToJson alternatives))
  | .asName pattern name =>
    .tagged "As" (.obj [("pattern", pattern.toJson), ("name", text name)])
  | .unsupported kind source span =>
    .tagged "Unsupported" (.obj [("kind", text kind), ("text", text source), ("span", span.toJson)])

def patternsToJson : List Pattern → List Json
  | [] => []
  | p :: rest => p.toJson :: patternsToJson rest

def entriesToJson : List (Pattern × Pattern) → List Json
  | [] => []
  | (key, value) :: rest => .arr [key.toJson, value.toJson] :: entriesToJson rest

def keywordsToJson : List (String × Pattern) → List Json
  | [] => []
  | (name, p) :: rest => .arr [text name, p.toJson] :: keywordsToJson rest

end

def ImportName.toJson (name : ImportName) : Json :=
  .obj [("name", text name.name), ("alias", Json.ofOption text name.asName)]

def WithItem.toJson (item : WithItem) : Json :=
  .obj [("context", item.context.toJson), ("target", optionToJson item.target)]

mutual

/-- What a statement says, as JSON. -/
def StmtKind.toJson : StmtKind → Json
  | .expr value => .tagged "Expr" value.toJson
  | .assign targets value =>
    .tagged "Assign" (.obj [("targets", .arr (listToJson targets)), ("value", value.toJson)])
  | .annAssign target hint value =>
    .tagged "AnnAssign"
      (.obj [("target", target.toJson), ("annotation", hint.toJson), ("value", optionToJson value)])
  | .augAssign target op value =>
    .tagged "AugAssign"
      (.obj [("target", target.toJson), ("op", text op.label), ("value", value.toJson)])
  | .ifChain branches orelse =>
    .tagged "If"
      (.obj [("branches", .arr (branchesToJson branches)), ("orelse", optionalBlockToJson orelse)])
  | .whileLoop test body orelse =>
    .tagged "While"
      (.obj [("test", test.toJson), ("body", .arr (blockToJson body)),
        ("orelse", optionalBlockToJson orelse)])
  | .forLoop target iter body orelse isAsync =>
    .tagged "For"
      (.obj [("target", target.toJson), ("iter", iter.toJson), ("body", .arr (blockToJson body)),
        ("orelse", optionalBlockToJson orelse), ("is_async", .bool isAsync)])
  | .tryBlock body handlers orelse finalbody =>
    .tagged "Try"
      (.obj [("body", .arr (blockToJson body)), ("handlers", .arr (handlersToJson handlers)),
        ("orelse", optionalBlockToJson orelse), ("finalbody", optionalBlockToJson finalbody)])
  | .withBlock items body isAsync =>
    .tagged "With"
      (.obj [("items", Json.ofList WithItem.toJson items), ("body", .arr (blockToJson body)),
        ("is_async", .bool isAsync)])
  | .functionDef ⟨name, params, returns, body, decorators, isAsync⟩ =>
    .tagged "FunctionDef"
      (.obj [("name", text name), ("params", .arr (paramsToJson params)),
        ("returns", optionToJson returns), ("body", .arr (blockToJson body)),
        ("decorators", .arr (listToJson decorators)), ("is_async", .bool isAsync)])
  | .classDef ⟨name, bases, body, decorators⟩ =>
    .tagged "ClassDef"
      (.obj [("name", text name), ("bases", .arr (argsToJson bases)),
        ("body", .arr (blockToJson body)), ("decorators", .arr (listToJson decorators))])
  | .matchBlock subject cases =>
    .tagged "Match" (.obj [("subject", subject.toJson), ("cases", .arr (casesToJson cases))])
  | .returnStmt value => .tagged "Return" (optionToJson value)
  | .raiseStmt exc cause =>
    .tagged "Raise" (.obj [("exc", optionToJson exc), ("cause", optionToJson cause)])
  | .deleteStmt targets => .tagged "Delete" (.arr (listToJson targets))
  | .assertStmt test msg =>
    .tagged "Assert" (.obj [("test", test.toJson), ("msg", optionToJson msg)])
  | .importStmt names => .tagged "Import" (Json.ofList ImportName.toJson names)
  | .importFrom path names wildcard =>
    .tagged "ImportFrom"
      (.obj [("module", text path), ("names", Json.ofList ImportName.toJson names),
        ("wildcard", .bool wildcard)])
  | .globalStmt names => .tagged "Global" (texts names)
  | .nonlocalStmt names => .tagged "Nonlocal" (texts names)
  | .passStmt => text "Pass"
  | .breakStmt => text "Break"
  | .continueStmt => text "Continue"
  | .comment source => .tagged "Comment" (text source)
  | .unsupported kind source =>
    .tagged "Unsupported" (.obj [("kind", text kind), ("text", text source)])

def blockToJson : List Stmt → List Json
  | [] => []
  | ⟨kind, span⟩ :: rest => .obj [("kind", kind.toJson), ("span", span.toJson)] :: blockToJson rest

def optionalBlockToJson : Option (List Stmt) → Json
  | none => .null
  | some body => .arr (blockToJson body)

def branchesToJson : List Branch → List Json
  | [] => []
  | ⟨test, body⟩ :: rest =>
    .obj [("test", test.toJson), ("body", .arr (blockToJson body))] :: branchesToJson rest

def handlersToJson : List Handler → List Json
  | [] => []
  | ⟨types, name, body, span⟩ :: rest =>
    .obj [("types", .arr (listToJson types)), ("name", Json.ofOption text name),
      ("body", .arr (blockToJson body)), ("span", span.toJson)] :: handlersToJson rest

def casesToJson : List MatchCase → List Json
  | [] => []
  | ⟨pattern, guard, body, span⟩ :: rest =>
    .obj [("pattern", pattern.toJson), ("guard", optionToJson guard),
      ("body", .arr (blockToJson body)), ("span", span.toJson)] :: casesToJson rest

end

def Module.toJson (m : Module) : Json :=
  .obj [("body", .arr (blockToJson m.body))]

end PythonToCSharp.Python
