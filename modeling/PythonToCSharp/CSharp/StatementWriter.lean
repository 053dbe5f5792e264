import PythonToCSharp.CSharp.StatementLayout
import PythonToCSharp.Layout.Writer

/-!
Writing C# statements, functions, classes and files through side buffers.

The body of a function is not written where it stands: it goes into a buffer that starts one level
deeper than the header will, and the text of the buffer is put in behind the header. So do the
members of a class one by one, the statements of its static constructor, the class itself, and the
types behind the top level, each from a level that is fixed before its surroundings are written.
Every statement has to come back to its level, and every buffer to its first.
-/

namespace PythonToCSharp.CSharp

open Layout

/-- Writes a static constructor around the text of its statements, if there is any. -/
def writeConstructor (name text : String) : Write := fun out =>
  if text = "" then .ok out
  else Write.close ((out.line ("static " ++ name ++ "()")).openBlock.raw text)

mutual

/-- Writes a statement. A class that stands among statements has a buffer of its own. -/
def Stmt.write : Stmt → Write
  | .ifElse branches otherwise => fun out => do
    writeOptional "else" otherwise (← writeBranches "if" branches out)
  | .whileLoop test body => fun out =>
    Write.braced (writeAll body) (out.line ("while (" ++ test.text ++ ")"))
  | .forEach isAsync item source body => fun out =>
    Write.braced (writeAll body)
      (out.line (awaited isAsync "foreach" ++ " (var " ++ item ++ " in " ++ source.text ++ ")"))
  | .tryCatch body catches cleanup => fun out => do
    let out ← Write.braced (writeAll body) (out.line "try")
    writeOptional "finally" cleanup (← writeCatches catches out)
  | .using_ isAsync resources body => fun out =>
    Write.braced (writeAll body)
      (resources.foldl (fun out resource =>
        out.line (awaited isAsync "using" ++ " (" ++ resource.text ++ ")")) out)
  | .switch subject sections => fun out =>
    Write.braced (writeSections sections) (out.line ("switch (" ++ subject.text ++ ")"))
  | .function declaration => declaration.write
  | .type declaration => fun out => do
    return out.raw (← Write.capture out.width out.level declaration.write)
  | simple => Write.emit simple.layout

def writeAll : List Stmt → Write
  | [] => .ok
  | s :: rest => fun out => do writeAll rest (← Write.steady s.write out)

def writeOptional (keyword : String) : Option (List Stmt) → Write
  | none => .ok
  | some body => fun out => Write.braced (writeAll body) (out.line keyword)

/-- Writes the branches of a conditional, the first with the given keyword. -/
def writeBranches (keyword : String) : List Branch → Write
  | [] => .ok
  | ⟨test, body⟩ :: rest => fun out => do
    let out ← Write.braced (writeAll body) (out.line (keyword ++ " (" ++ test.text ++ ")"))
    writeBranches "else if" rest out

def writeCatches : List Catch → Write
  | [] => .ok
  | ⟨caught, body⟩ :: rest => fun out => do
    writeCatches rest (← Write.braced (writeAll body) (out.line caught.text))

def writeSections : List Section → Write
  | [] => .ok
  | ⟨label, body⟩ :: rest => fun out => do
    writeSections rest (← Write.deeper (writeAll body) (out.line label.text))

/-- The texts of statements, each out of a buffer of its own. -/
def captureEach (width level : Nat) : List Stmt → Except WriteFault String
  | [] => .ok ""
  | s :: rest => do
    let text ← Write.capture width level (Write.steady s.write)
    return text ++ (← captureEach width level rest)

/-- Writes a function. Its body has been written into a buffer when the header comes. -/
def Function.write : Function → Write
  | ⟨decorators, header, valueType, vars, flags, body⟩ => fun out => do
    let out ← Write.emit (decoratorLines decorators) out
    let text ← Write.capture out.width (out.level + 1) (writeAll body)
    let declarations := optionalLine (declarationLine "" valueType.text vars) ++
      optionalLine (flagLine "" flags)
    let out ← Write.emit declarations (out.line header.text).openBlock
    Write.close (out.raw text)

/-- Writes a class. Its members and the statements of its static constructor have been written into
buffers when its head comes. -/
def Class.write : Class → Write
  | ⟨decorators, isPublic, name, bases, valueType, statics, fields, flags, initializer,
      members⟩ => fun out => do
    let out ← Write.emit (decoratorLines decorators) out
    let memberText ← captureEach out.width (out.level + 1) members
    let initializerText ← captureEach out.width (out.level + 2) initializer
    let out ← Write.emit (classDeclarations valueType statics fields flags)
      (out.line (classHead isPublic name bases)).openBlock
    let out ← writeConstructor name initializerText out
    Write.close (out.raw memberText)

end

/-- Puts the text of a type behind what has been written, with a blank line between. -/
def appendType (out : Emitter) (text : String) : Emitter :=
  (if out.isEmpty then out else out.line "").raw text

/-- The text of a file. The top level and the types have been written into buffers when the using
directives come. -/
def File.write (width : Nat) (file : File) : Except WriteFault String := do
  let body ← Write.capture width 0 (writeAll file.body)
  let types ← file.types.mapM fun declaration => Write.capture width 0 declaration.write
  let out ← Write.emit (separated (file.usings.map Node.line)) { width := width }
  let out ← Write.emit (optionalLine (declarationLine "" file.valueType.text file.vars) ++
    optionalLine (flagLine "" file.flags)) out
  return (types.foldl appendType (out.raw body)).text

end PythonToCSharp.CSharp
