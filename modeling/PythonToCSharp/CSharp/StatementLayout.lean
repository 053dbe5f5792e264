import PythonToCSharp.CSharp.Declaration
import PythonToCSharp.CSharp.Statement
import PythonToCSharp.Layout.Forest

/-!
The layout of C# statements, functions, classes and files: one line for a simple statement or a
head, and a block between braces behind each head. The statements of a switch section stand one
level below its label.
-/

namespace PythonToCSharp.CSharp

open Layout (Node)
open Text (join)

def optionalLine (line : Option String) : List Node :=
  line.toList.map Node.line

def decoratorLines (decorators : List Expr) : List Node :=
  decorators.map fun decorator => .line ("// @" ++ decorator.text)

/-- The keyword of a statement that may be asynchronous. -/
def awaited (isAsync : Bool) (keyword : String) : String :=
  if isAsync then "await " ++ keyword else keyword

def classHead (isPublic : Bool) (name : String) (bases : List Expr) : String :=
  (if isPublic then "public class " else "class ") ++ name ++
    if bases.isEmpty then "" else " : " ++ join ", " (bases.map Expr.text)

def classDeclarations (valueType : TypeRef) (statics fields flags : List String) : List Node :=
  optionalLine (declarationLine "public static " valueType.text statics) ++
    optionalLine (declarationLine "public " valueType.text fields) ++
    optionalLine (flagLine "static " flags)

/-- The static constructor of a class, if it has something to do. -/
def staticConstructor (name : String) (content : List Node) : List Node :=
  if content.isEmpty then [] else [.line ("static " ++ name ++ "()"), .block content]

mutual

def Stmt.layout : Stmt → List Node
  | .expr value => [.line (value.text ++ ";")]
  | .empty => [.line ";"]
  | .assign target value => [.line (target.text ++ " = " ++ value.text ++ ";")]
  | .augment target op value =>
    [.line (target.text ++ " " ++ op.symbol ++ "= " ++ value.text ++ ";")]
  | .flag name value => [.line ("bool " ++ name ++ " = " ++ (Expr.ofBool value).text ++ ";")]
  | .comment text => [.line ("//" ++ text)]
  | .ifElse branches otherwise => layoutBranches "if" branches ++ layoutOptional "else" otherwise
  | .whileLoop test body => [.line ("while (" ++ test.text ++ ")"), .block (layoutAll body)]
  | .forEach isAsync item source body =>
    [.line (awaited isAsync "foreach" ++ " (var " ++ item ++ " in " ++ source.text ++ ")"),
      .block (layoutAll body)]
  | .tryCatch body catches cleanup =>
    [.line "try", .block (layoutAll body)] ++ layoutCatches catches ++
      layoutOptional "finally" cleanup
  | .using_ isAsync resources body =>
    (resources.map fun resource =>
      .line (awaited isAsync "using" ++ " (" ++ resource.text ++ ")")) ++ [.block (layoutAll body)]
  | .switch subject sections =>
    [.line ("switch (" ++ subject.text ++ ")"), .block (layoutSections sections)]
  | .yieldReturn value => [.line ("yield return " ++ value.text ++ ";")]
  | .yieldBreak => [.line "yield break;"]
  | .return_ none => [.line "return;"]
  | .return_ (some value) => [.line ("return " ++ value.text ++ ";")]
  | .throw_ none => [.line "throw;"]
  | .throw_ (some value) => [.line ("throw " ++ value.text ++ ";")]
  | .break_ => [.line "break;"]
  | .continue_ => [.line "continue;"]
  | .function declaration => declaration.layout
  | .type declaration => declaration.layout

def layoutAll : List Stmt → List Node
  | [] => []
  | s :: rest => s.layout ++ layoutAll rest

def layoutOptional (keyword : String) : Option (List Stmt) → List Node
  | none => []
  | some body => [.line keyword, .block (layoutAll body)]

/-- The layout of the branches of a conditional, the first with the given keyword. -/
def layoutBranches (keyword : String) : List Branch → List Node
  | [] => []
  | ⟨test, body⟩ :: rest =>
    [.line (keyword ++ " (" ++ test.text ++ ")"), .block (layoutAll body)] ++
      layoutBranches "else if" rest

def layoutCatches : List Catch → List Node
  | [] => []
  | ⟨caught, body⟩ :: rest => [.line caught.text, .block (layoutAll body)] ++ layoutCatches rest

def layoutSections : List Section → List Node
  | [] => []
  | ⟨label, body⟩ :: rest => [.line label.text, .deeper (layoutAll body)] ++ layoutSections rest

def Function.layout : Function → List Node
  | ⟨decorators, header, valueType, vars, flags, body⟩ =>
    decoratorLines decorators ++
      [.line header.text,
        .block (optionalLine (declarationLine "" valueType.text vars) ++
          optionalLine (flagLine "" flags) ++ layoutAll body)]

def Class.layout : Class → List Node
  | ⟨decorators, isPublic, name, bases, valueType, statics, fields, flags, initializer, members⟩ =>
    decoratorLines decorators ++
      [.line (classHead isPublic name bases),
        .block (classDeclarations valueType statics fields flags ++
          staticConstructor name (layoutAll initializer) ++ layoutAll members)]

end

/-- A blank line, if something stands before it. -/
def separated (before : List Node) : List Node :=
  if before.isEmpty then [] else before ++ [.line ""]

/-- The layout of a file. Each type has a blank line before it whenever something was written
before. -/
def File.layout (file : File) : List Node :=
  let top := separated (file.usings.map Node.line) ++
    optionalLine (declarationLine "" file.valueType.text file.vars) ++
    optionalLine (flagLine "" file.flags) ++ layoutAll file.body
  file.types.foldl (fun before declaration => separated before ++ declaration.layout) top

end PythonToCSharp.CSharp
