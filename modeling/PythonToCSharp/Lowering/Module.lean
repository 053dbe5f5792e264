import PythonToCSharp.CSharp.StatementWriter
import PythonToCSharp.Lowering.Definition

/-!
Whole modules. The rules for single statements are applied all through the tree, and a lowered
module is a file, which is written at the chosen width.
-/

namespace PythonToCSharp.Lowering

mutual

def lowerStmt (names : LibraryNames) : Python.Stmt → Lower Block
  | ⟨kind, span⟩ => located span (lowerKind names kind)

/-- A statement at the place that has been moved to. -/
def lowerKind (names : LibraryNames) : Python.StmtKind → Lower Block
  | .expr value => do lowerExprStmt names value
  | .assign targets value => do lowerAssign names targets value
  | .annAssign target hint value => do lowerAnnAssign names target hint value
  | .augAssign target op value => do lowerAugAssign names target op value
  | .ifChain branches orelse => do
    let branches ← lowerBranches names branches
    return [.ifElse branches (← optionally (lowerOrelse names orelse))]
  | .whileLoop test body orelse =>
    lowerWhile names test (lowerBlock names body) (lowerOrelse names orelse)
  | .forLoop target iter body orelse isAsync =>
    lowerFor names isAsync target iter (lowerBlock names body) (lowerOrelse names orelse)
  | .tryBlock body handlers orelse finalbody =>
    lowerTry (lowerBlock names body) (lowerHandlers names handlers) (lowerOrelse names orelse)
      (lowerOrelse names finalbody)
  | .withBlock items body isAsync => do
    let resources ← lowerResources names items
    return [.using_ isAsync resources (← lowerBlock names body)]
  | .functionDef ⟨name, params, returns, body, decorators, isAsync⟩ =>
    lowerFunction names ⟨name, params, returns, body, decorators, isAsync⟩ (lowerBlock names body)
  | .classDef ⟨name, bases, body, decorators⟩ =>
    lowerClass names ⟨name, bases, body, decorators⟩ (lowerMembers names body)
  | .matchBlock subject cases => lowerMatch names subject (lowerCases names (isTuple subject) cases)
  | .returnStmt value => do lowerReturn names value
  | .raiseStmt exc cause => do lowerRaise names exc cause
  | .deleteStmt targets => do lowerDeletes names targets
  | .assertStmt test msg => do lowerAssert names test msg
  | .importStmt entries => do lowerImport entries
  | .importFrom path entries wildcard => do lowerImportFrom path entries wildcard
  | .globalStmt ids => do lowerGlobal ids
  | .nonlocalStmt ids => do lowerNonlocal ids
  | .passStmt => return [.empty]
  | .breakStmt => do lowerBreak
  | .continueStmt => return [.continue_]
  | .comment text => return [comment text]
  | .unsupported kind text => do lowerUnsupported kind text

def lowerBlock (names : LibraryNames) : List Python.Stmt → Lower Block
  | [] => return []
  | s :: rest => do
    let first ← lowerStmt names s
    return first ++ (← lowerBlock names rest)

/-- The step for a block that may be missing. -/
def lowerOrelse (names : LibraryNames) : Option (List Python.Stmt) → Option (Lower Block)
  | none => none
  | some body => some (lowerBlock names body)

def lowerBranches (names : LibraryNames) : List Python.Branch → Lower (List CSharp.Branch)
  | [] => return []
  | ⟨test, body⟩ :: rest => do
    let test ← lowerExpr names test
    let body ← lowerBlock names body
    return ⟨test, body⟩ :: (← lowerBranches names rest)

def lowerHandlers (names : LibraryNames) : List Python.Handler → Lower (List CSharp.Catch)
  | [] => return []
  | ⟨types, name, body, span⟩ :: rest => do
    moveTo span
    let caught ← lowerCaught names types name
    let body ← lowerBlock names body
    return ⟨caught, body⟩ :: (← lowerHandlers names rest)

def lowerCases (names : LibraryNames) (tupleSubject : Bool) :
    List Python.MatchCase → Lower (List CSharp.Section)
  | [] => return []
  | ⟨pattern, guard, body, span⟩ :: rest => do
    moveTo span
    let label ← lowerLabel names tupleSubject pattern guard
    let lowered ← lowerBlock names body
    return ⟨label, sectionBody body lowered⟩ :: (← lowerCases names tupleSubject rest)

/-- The statements of a class body, divided by where they go. -/
def lowerMembers (names : LibraryNames) : List Python.Stmt → Lower ClassBody
  | [] => return {}
  | s :: rest => do
    match memberPlace s.kind with
    | .nowhere => lowerMembers names rest
    | place =>
      let lowered ← lowerStmt names s
      return (← lowerMembers names rest).add place lowered

end

/-- Only the scope of the module may be open around its statements. -/
def checkTopLevel (moment : String) : Lower Unit := do
  let s ← get
  if s.scopes.depth ≠ 1 then throw (.depth s.span s.scopes.depth moment)

/-- A module as a file. -/
def lowerModule (names : LibraryNames) (source : Python.Module) : Lower CSharp.File := do
  checkTopLevel "before"
  modifyRoot (·.reserve (Python.boundIn source.body ++ Python.globalsOf source.body))
  let body ← lowerBlock names source.body
  checkTopLevel "after"
  let s ← get
  return {
    usings := s.usings, valueType := valueType names, vars := s.scopes.root.declared
    flags := s.scopes.root.flags, body, types := s.types }

end PythonToCSharp.Lowering

namespace PythonToCSharp

/-- The code for a module, and what was found on the way. -/
structure Output where
  code : String
  diagnostics : List Diagnostic
  deriving DecidableEq, Repr

/-- Whether something was found that may lose meaning. -/
def Output.hasWarnings (output : Output) : Bool :=
  output.diagnostics.any fun d => d.severity == .warning

/-- The C# code for a Python module. -/
def lower (options : Options) (source : Python.Module) : Except Lowering.Fault Output := do
  let (file, s) ← (Lowering.lowerModule options.library source).run {}
  match file.write options.indentWidth with
  | .ok code => return ⟨code, s.diagnostics⟩
  | .error fault => throw (.indentation s.span fault)

end PythonToCSharp
