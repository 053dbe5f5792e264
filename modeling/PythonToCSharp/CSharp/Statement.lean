import PythonToCSharp.CSharp.Pattern

/-!
C# statements, functions, classes and whole files as trees. Names are held as they are spelled.

Functions and classes stand among the statements because a local function or a nested class may be
declared wherever a statement may stand.
-/

namespace PythonToCSharp.CSharp

open Text (join)

/-- Types as they are named in declarations. -/
inductive TypeRef where
  | named (name : String)
  | array (element : TypeRef)
  | generic (name : String) (arguments : List TypeRef)

mutual

def TypeRef.text : TypeRef → String
  | .named name => name
  | .array element => element.text ++ "[]"
  | .generic name arguments => name ++ "<" ++ join ", " (typeTexts arguments) ++ ">"

def typeTexts : List TypeRef → List String
  | [] => []
  | type :: rest => type.text :: typeTexts rest

end

structure Parameter where
  type : TypeRef
  name : String
  /-- The parameter takes all further arguments. -/
  variadic : Bool := false
  default : Option Expr := none

def Parameter.text (param : Parameter) : String :=
  (if param.variadic then "params " else "") ++ param.type.text ++ " " ++ param.name ++
    match param.default with
    | none => ""
    | some value => " = " ++ value.text

/-- The words before the return type of a function. -/
structure Modifiers where
  isPublic : Bool := false
  isStatic : Bool := false
  isAsync : Bool := false
  deriving DecidableEq, Repr

def Modifiers.text (modifiers : Modifiers) : String :=
  (if modifiers.isPublic then "public " else "") ++
    (if modifiers.isStatic then "static " else "") ++ (if modifiers.isAsync then "async " else "")

/-- The first line of a function. -/
inductive Header where
  | constructor (className : String) (params : List Parameter)
  | function (modifiers : Modifiers) (returns : TypeRef) (name : String) (params : List Parameter)

def Header.text : Header → String
  | .constructor className params =>
    "public " ++ className ++ "(" ++ join ", " (params.map Parameter.text) ++ ")"
  | .function modifiers returns name params =>
    modifiers.text ++ returns.text ++ " " ++ name ++ "(" ++
      join ", " (params.map Parameter.text) ++ ")"

/-- What a catch clause takes. -/
inductive Caught where
  /-- Every exception, without a name for it. -/
  | everything
  /-- Every exception, with a name for it. -/
  | anyException (name : String)
  | one (type : Expr) (name : Option String)
  /-- An exception of one of several types. -/
  | oneOf (name : String) (types : List Expr)

def Caught.text : Caught → String
  | .everything => "catch"
  | .anyException name => "catch (Exception " ++ name ++ ")"
  | .one type none => "catch (" ++ type.text ++ ")"
  | .one type (some name) => "catch (" ++ type.text ++ " " ++ name ++ ")"
  | .oneOf name types =>
    "catch (Exception " ++ name ++ ") when (" ++
      join " || " (types.map fun type => name ++ " is " ++ type.textAt .primary) ++ ")"

inductive Label where
  | default
  | case (pattern : Pattern) (guard : Option Expr)

def Label.text : Label → String
  | .default => "default:"
  | .case pattern none => "case " ++ pattern.text ++ ":"
  | .case pattern (some guard) => "case " ++ pattern.text ++ " when " ++ guard.text ++ ":"

/-- What a using statement acquires. -/
structure Resource where
  target : Option Expr
  value : Expr

def Resource.text (resource : Resource) : String :=
  match resource.target with
  | none => resource.value.text
  | some target => target.text ++ " = " ++ resource.value.text

mutual

inductive Stmt where
  | expr (value : Expr)
  | empty
  | assign (target value : Expr)
  /-- `target op= value` -/
  | augment (target : Expr) (op : BinaryOp) (value : Expr)
  /-- A truth value in a variable of its own. -/
  | flag (name : String) (value : Bool)
  /-- A line comment; the text stands right behind the slashes. -/
  | comment (text : String)
  | ifElse (branches : List Branch) (otherwise : Option (List Stmt))
  | whileLoop (test : Expr) (body : List Stmt)
  | forEach (isAsync : Bool) (item : String) (source : Expr) (body : List Stmt)
  | tryCatch (body : List Stmt) (catches : List Catch) (cleanup : Option (List Stmt))
  | using_ (isAsync : Bool) (resources : List Resource) (body : List Stmt)
  | switch (subject : Expr) (sections : List Section)
  | yieldReturn (value : Expr)
  | yieldBreak
  | return_ (value : Option Expr)
  | throw_ (value : Option Expr)
  | break_
  | continue_
  | function (declaration : Function)
  | type (declaration : Class)

structure Branch where
  test : Expr
  body : List Stmt

structure Catch where
  caught : Caught
  body : List Stmt

structure Section where
  label : Label
  body : List Stmt

/-- A function with the variables and flags it declares at the head of its body. The decorators of
the source stand before it as comments. -/
structure Function where
  decorators : List Expr
  header : Header
  valueType : TypeRef
  vars : List String
  flags : List String
  body : List Stmt

/-- A class: static variables, instance fields, flags, the statements of its static constructor, and
its members. -/
structure Class where
  decorators : List Expr
  isPublic : Bool
  name : String
  bases : List Expr
  valueType : TypeRef
  statics : List String
  fields : List String
  flags : List String
  initializer : List Stmt
  members : List Stmt

end

instance : Inhabited Stmt := ⟨.empty⟩

/-- A file: its using directives, the variables and flags of the top level, the statements there,
and the types behind them. -/
structure File where
  usings : List String
  valueType : TypeRef
  vars : List String
  flags : List String
  body : List Stmt
  types : List Class

end PythonToCSharp.CSharp
