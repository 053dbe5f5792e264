import PythonToCSharp.Lowering.Statement

/-!
The rules for functions and classes. A definition opens a scope of its own, whose frame collects
what the body assigns. Functions stay where they stand. A class stays in place only inside another
class; any other class goes behind the top level.
-/

namespace PythonToCSharp.Lowering

open CSharp (escapeIdentifier)

/-! ## Functions -/

/-- The last segment of the name of a decorator. -/
def decoratorName? : Python.Expr → Option String
  | .name id => some id
  | .attribute _ attr => some attr
  | .call func _ => decoratorName? func
  | _ => none

/-- How a function is called: outside of classes, on an instance, on nothing, or on a class. -/
inductive Role where
  | free
  | ofInstance
  | static
  | ofClass
  deriving DecidableEq, Repr

def isNamed (name : String) (decorator : Python.Expr) : Bool :=
  decoratorName? decorator == some name

/-- The role of a function among the members of a class or outside. -/
def roleOf (inClass : Bool) (decorators : List Python.Expr) : Role :=
  if !inClass then .free
  else if decorators.any (isNamed "staticmethod") then .static
  else if decorators.any (isNamed "classmethod") then .ofClass
  else .ofInstance

def otherDecorators (inClass : Bool) (decorators : List Python.Expr) : List Python.Expr :=
  decorators.filter fun decorator =>
    !(inClass && (isNamed "staticmethod" decorator || isNamed "classmethod" decorator))

/-- The receiver and the parameters that remain. A method gives up its first parameter unless that
takes several arguments. -/
def splitReceiver (role : Role) (params : List Python.Param) : Option String × List Python.Param :=
  match params with
  | [] => (none, [])
  | first :: rest =>
    if first.kind != .normal then (none, params)
    else match role with
      | .ofInstance => (some first.name, rest)
      | .ofClass => (none, rest)
      | _ => (none, params)

/-- The decorators that cannot be applied, each with a warning. -/
def lowerDecorators (names : LibraryNames) : List Python.Expr → Render (List CSharp.Expr)
  | [] => return []
  | decorator :: rest => do
    let decorator ← lowerExpr names decorator
    warn "decorator" ("decorator `" ++ decorator.text ++ "` is not applied")
    return decorator :: (← lowerDecorators names rest)

def valueType (names : LibraryNames) : CSharp.TypeRef :=
  .named names.valueType

def lowerParam (names : LibraryNames) (param : Python.Param) : Render CSharp.Parameter := do
  let name := escapeIdentifier param.name
  match param.kind with
  | .normal =>
      return { type := valueType names, name, default := ← lowerOption names param.default }
  | .varArgs => return { type := .array (valueType names), name, variadic := true }
  | .kwArgs => return { type := .generic "Dictionary" [.named "string", valueType names], name }

def lowerParams (names : LibraryNames) : List Python.Param → Render (List CSharp.Parameter)
  | [] => return []
  | param :: rest => do
    let param ← lowerParam names param
    return param :: (← lowerParams names rest)

def returnType (names : LibraryNames) (isAsync yields returnsValue : Bool) : CSharp.TypeRef :=
  match isAsync, yields, returnsValue with
  | false, true, _ => .generic "IEnumerable" [valueType names]
  | false, false, true => valueType names
  | false, false, false => .named "void"
  | true, true, _ => .generic "IAsyncEnumerable" [valueType names]
  | true, false, true => .generic "Task" [valueType names]
  | true, false, false => .named "Task"

/-- The header of a function; `owner` is the class whose member it is. -/
def functionHeader (names : LibraryNames) (owner : Option String) (role : Role)
    (definition : Python.FunctionDef) (params : List CSharp.Parameter) : CSharp.Header :=
  let plain : CSharp.Header :=
    .function ⟨role != .free, role == .static || role == .ofClass, definition.isAsync⟩
      (returnType names definition.isAsync (Python.yieldsIn definition.body)
        (Python.returnsValueIn definition.body))
      (escapeIdentifier definition.name) params
  match owner with
  | some name =>
      if role != .free && definition.name == "__init__" then .constructor name params else plain
  | none => plain

/-- The frame of a function before its body is lowered. -/
def openFunction (definition : Python.FunctionDef) (receiver : Option String)
    (frame : Scope.Frame) : Scope.Frame :=
  let frame := definition.params.foldl (fun frame param => frame.exclude param.name) frame
  let frame := match receiver with
    | some name => frame.setReceiver name
    | none => frame
  let frame := if Python.yieldsIn definition.body then frame.setGenerator else frame
  frame.reserve (Python.boundIn definition.body)

/-- A function. Its parameters, defaults included, belong to the scope around it. -/
def lowerFunction (names : LibraryNames) (definition : Python.FunctionDef) (body : Lower Block) :
    Lower Block := do
  let inClass := (← currentFrame).kind == .class_
  let role := roleOf inClass definition.decorators
  let decorators ← lowerDecorators names (otherDecorators inClass definition.decorators)
  let (receiver, params) := splitReceiver role definition.params
  let params ← lowerParams names params
  let header := functionHeader names (← get).classNames.head? role definition params
  let (body, frame) ← inScope .function do
    modifyFrame (openFunction definition receiver)
    body
  return [.function ⟨decorators, header, valueType names, frame.declared, frame.flags, body⟩]

/-! ## Classes -/

/-- The bases of a class. The common base of all classes is not named, and only positional arguments
are bases. -/
def lowerBases (names : LibraryNames) (className : String) :
    List Python.Arg → Render (List CSharp.Expr)
  | [] => return []
  | .positional (.name id) :: rest => do
    if id == "object" then lowerBases names className rest
    else
      let base ← lowerName id
      return base :: (← lowerBases names className rest)
  | .positional base :: rest => do
    let base ← lowerExpr names base
    return base :: (← lowerBases names className rest)
  | .keyword name _ :: rest => do
    warn "argument_list" ("`" ++ name ++ "=` base argument of `" ++ className ++ "` dropped")
    lowerBases names className rest
  | .star _ :: rest => do
    warn "argument_list" ("unpacked base argument of `" ++ className ++ "` dropped")
    lowerBases names className rest
  | .doubleStar _ :: rest => do
    warn "argument_list" ("unpacked base argument of `" ++ className ++ "` dropped")
    lowerBases names className rest

/-- Where a statement of a class body goes. -/
inductive MemberPlace where
  | nowhere
  | members
  | initializer
  deriving DecidableEq, Repr

/-- Where a statement of a class body goes: definitions and comments are members, what does nothing
is left out, and everything else runs in the static constructor. -/
def memberPlace : Python.StmtKind → MemberPlace
  | .passStmt => .nowhere
  | .expr .ellipsis => .nowhere
  | .functionDef _ => .members
  | .classDef _ => .members
  | .comment _ => .members
  | .expr (.str _) => .members
  | _ => .initializer

structure ClassBody where
  members : Block := []
  initializer : Block := []

/-- Puts the statements for one statement of a class body before those for the rest. -/
def ClassBody.add (place : MemberPlace) (lowered : Block) (body : ClassBody) : ClassBody :=
  match place with
  | .nowhere => body
  | .members => { body with members := lowered ++ body.members }
  | .initializer => { body with initializer := lowered ++ body.initializer }

/-- A class as a tree; a field that is also a static variable is declared only once. -/
def classOf (names : LibraryNames) (nested : Bool) (name : String)
    (decorators bases : List CSharp.Expr) (frame : Scope.Frame) (body : ClassBody) : CSharp.Class :=
  { decorators, isPublic := nested, name := escapeIdentifier name, bases
    valueType := valueType names
    statics := frame.declared
    fields := (frame.fields.filter fun field => !frame.isDeclared field).map escapeIdentifier
    flags := frame.flags
    initializer := body.initializer
    members := body.members }

def lowerClass (names : LibraryNames) (definition : Python.ClassDef) (body : Lower ClassBody) :
    Lower Block := do
  let kind := (← currentFrame).kind
  if kind == .function then
    note "class_definition"
      ("class `" ++ definition.name ++ "` moved out of its enclosing function")
  let decorators ← lowerDecorators names definition.decorators
  let bases ← lowerBases names definition.name definition.bases
  let (body, frame) ← inScope .class_ do
    pushClassName definition.name
    modifyFrame (·.reserve (Python.boundIn definition.body))
    let body ← body
    popClassName
    return body
  let nested := kind == .class_
  let lowered := classOf names nested definition.name decorators bases frame body
  if nested then return [.type lowered]
  defer lowered
  return []

end PythonToCSharp.Lowering
