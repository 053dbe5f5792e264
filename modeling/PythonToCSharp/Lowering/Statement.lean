import PythonToCSharp.Lowering.Pattern
import PythonToCSharp.Python.Binding
import PythonToCSharp.Python.Hint
import PythonToCSharp.Text.Blank

/-!
The rules for single statements. A rule for a statement with blocks takes the steps that lower those
blocks, so that each rule stands on its own.

Names are recorded where they are assigned. An `else` behind a loop runs by a mark: that of a
`while` says that no `break` has left it, that of a `for` that its body has run. An `else` behind a
`try` runs by the completion flag of the frame.
-/

namespace PythonToCSharp.Lowering

open CSharp (escapeIdentifier)

abbrev Block := List CSharp.Stmt

/-! ## Targets -/

/-- Records what a single target binds: a name, or a field if it is an attribute of the receiver. -/
def recordSingle : Python.Expr → Render Unit
  | .name id => modifyFrame (·.record id)
  | .attribute (.name id) attr => do
    if (← receiver) = some id then
      modify fun s => { s with scopes := s.scopes.addClassField attr }
  | _ => pure ()

def recordTarget (target : Python.Expr) : Render Unit :=
  target.targets.forM recordSingle

mutual

/-- A target; unpacking becomes deconstruction. -/
def lowerTarget (names : LibraryNames) : Python.Expr → Render CSharp.Expr
  | .tuple items => do return .tuple (← lowerTargets names items)
  | .list items => do return .tuple (← lowerTargets names items)
  | .starred value => do
    warn "list_splat_pattern"
      "starred unpacking has no C# deconstruction; bound to the single target"
    lowerTarget names value
  | target => lowerExpr names target

def lowerTargets (names : LibraryNames) : List Python.Expr → Render (List CSharp.Expr)
  | [] => return []
  | target :: rest => do
    let target ← lowerTarget names target
    return target :: (← lowerTargets names rest)

end

/-! ## Simple statements -/

/-- A line comment with a blank behind the slashes. -/
def comment (text : String) : CSharp.Stmt :=
  .comment (" " ++ text)

/-- A line of a documentation string. -/
def docLine (line : String) : CSharp.Stmt :=
  let line := Text.trim line
  if line.isEmpty then .comment "" else comment line

/-- A string that stands alone, as comments. -/
def docComment (body : String) : Block :=
  (Text.lines (Text.trim body)).map docLine

def lowerExprStmt (names : LibraryNames) : Python.Expr → Render Block
  | .str literal => return docComment literal.body
  | .ellipsis => return [.empty]
  | .yield none => return [.yieldReturn .null]
  | .yield (some value) => do return [.yieldReturn (← lowerExpr names value)]
  | .yieldFrom source => do
    let item ← fresh "_it"
    let source ← lowerExpr names source
    return [.forEach false item source [.yieldReturn (.name item)]]
  | value => do return [.expr (← lowerExpr names value)]

/-- An assignment to several targets: the first one takes the value, the others take it from there.
-/
def lowerAssign (names : LibraryNames) (targets : List Python.Expr) (value : Python.Expr) :
    Render Block := do
  targets.forM recordTarget
  let value ← lowerExpr names value
  match ← lowerTargets names targets with
  | [] => return [.expr value]
  | first :: rest => return .assign first value :: rest.map fun target => .assign target first

/-- An assignment with a type hint; without a value it only declares. -/
def lowerAnnAssign (names : LibraryNames) (target hint : Python.Expr) (value : Option Python.Expr) :
    Render Block := do
  match target with
  | .name id => modifyFrame (·.recordHinted id hint.hintText)
  | _ => recordTarget target
  match value with
  | none => return []
  | some value =>
    let target ← lowerTarget names target
    return [.assign target (← lowerExpr names value)]

/-- An assignment that combines the old value with another. -/
def augmented (target value : CSharp.Expr) : Operator → CSharp.Stmt
  | .native op => .augment target op value
  | .helper name => .assign target (.apply name [target, value])

def lowerAugAssign (names : LibraryNames) (target : Python.Expr) (op : Python.BinaryOp)
    (value : Python.Expr) : Render Block := do
  let target ← lowerExpr names target
  let value ← lowerExpr names value
  return [augmented target value (operatorFor names op)]

/-- `break`, which first clears the mark of the loop that it leaves. -/
def lowerBreak : Render Block := do
  match (← currentFrame).breakTarget? with
  | some (.loop (some mark)) => return [.assign (.name mark) (.ofBool false), .break_]
  | some .switch =>
    warn "break_statement" "break inside match leaves the switch, not the enclosing loop"
    return [.break_]
  | _ => return [.break_]

/-- `return`, which in a generator only ends it. -/
def lowerReturn (names : LibraryNames) (value : Option Python.Expr) : Render Block := do
  if (← currentFrame).isGenerator then
    if value.isSome then
      warn "return_statement" "iterator methods cannot return a value; value dropped"
    return [.yieldBreak]
  else return [.return_ (← lowerOption names value)]

def isTypeName (name : String) : Bool :=
  name.toList.head?.any Char.isUpper

def calleeIsType : Python.Expr → Bool
  | .name id => isTypeName id
  | .attribute _ attr => isTypeName attr
  | _ => false

/-- What `raise` throws: exception types are instantiated. -/
def lowerException (names : LibraryNames) : Python.Expr → Render CSharp.Expr
  | .name id => do
    if isTypeName id then return .create (← lowerName id) [] else lowerName id
  | .call func args => do
    let called ← lowerExpr names func
    let args ← lowerArgs names args
    return if calleeIsType func then .create called args else .call called args
  | exc => lowerExpr names exc

def lowerRaise (names : LibraryNames) (exc cause : Option Python.Expr) : Render Block := do
  if cause.isSome then note "raise_statement" "exception cause (`from ...`) dropped"
  match exc with
  | none => return [.throw_ none]
  | some exc => return [.throw_ (some (← lowerException names exc))]

mutual

/-- `del` of one target: an item is removed, anything else is set to null. -/
def lowerDelete (names : LibraryNames) : Python.Expr → Render Block
  | .subscript value index => do
    note "delete_statement" "del on an item lowered to Remove(); check the collection type"
    let value ← lowerExpr names value
    let index ← lowerList names index
    return [.expr (.call (.member value "Remove") (index.map .positional))]
  | .tuple items => lowerDeletes names items
  | .list items => lowerDeletes names items
  | target => do return [.assign (← lowerExpr names target) .null]

def lowerDeletes (names : LibraryNames) : List Python.Expr → Render Block
  | [] => return []
  | target :: rest => do
    let first ← lowerDelete names target
    return first ++ (← lowerDeletes names rest)

end

def lowerAssert (names : LibraryNames) (test : Python.Expr) (msg : Option Python.Expr) :
    Render Block := do
  let test ← lowerExpr names test
  let msg ← lowerOption names msg
  return [.expr (.apply "System.Diagnostics.Debug.Assert" (test :: msg.toList))]

/-! ## Imports and declarations of scope -/

def importDirective (entry : Python.ImportName) : String :=
  match entry.asName with
  | some other => "using " ++ escapeIdentifier other ++ " = " ++ entry.name ++ ";"
  | none => "using " ++ entry.name ++ ";"

def memberDirective (path : String) (entry : Python.ImportName) : String :=
  "using " ++ escapeIdentifier (entry.asName.getD entry.name) ++ " = " ++ path ++ "." ++
    entry.name ++ ";"

def lowerImport (entries : List Python.ImportName) : Render Block := do
  entries.forM fun entry => addUsing (importDirective entry)
  return []

/-- `from path import`; a relative path has no counterpart. -/
def lowerImportFrom (path : String) (entries : List Python.ImportName) (wildcard : Bool) :
    Render Block := do
  if path.toList.head? = some '.' then
    warn "import_from_statement" ("relative import from `" ++ path ++ "` has no C# equivalent")
    return [comment ("from " ++ path ++ " import ...")]
  if wildcard then addUsing ("using static " ++ path ++ ";")
  else entries.forM fun entry => addUsing (memberDirective path entry)
  return []

/-- `global`: the names belong to the module. -/
def lowerGlobal (ids : List String) : Render Block := do
  ids.forM fun id => do
    modifyFrame (·.exclude id)
    modifyRoot (·.record id)
  return []

/-- `nonlocal`: the names belong to a function around. -/
def lowerNonlocal (ids : List String) : Render Block := do
  ids.forM fun id => modifyFrame (·.exclude id)
  return []

/-- The comments that keep a statement without a counterpart. -/
def keptAsComment (kind text : String) : Block :=
  match Text.lines text with
  | [] => [comment ("unsupported " ++ kind ++ ": ")]
  | first :: rest => comment ("unsupported " ++ kind ++ ": " ++ first) :: rest.map comment

def lowerUnsupported (kind text : String) : Render Block := do
  warn kind "statement has no C# translation; kept as a comment"
  return keptAsComment kind text

/-! ## Compound statements -/

/-- A step at a place, with the place of before afterwards. -/
def located {α : Type} (span : Python.Span) (step : Lower α) : Lower α := do
  let outer := (← get).span
  moveTo span
  let result ← step
  moveTo outer
  return result

/-- A step inside something that `break` leaves. -/
def breakable {α : Type} (target : Scope.BreakTarget) (step : Lower α) : Lower α := do
  modifyFrame (·.pushBreakTarget target)
  let result ← step
  modifyFrame (·.popBreakTarget)
  return result

/-- A step that may be missing. -/
def optionally {α : Type} : Option (Lower α) → Lower (Option α)
  | none => return none
  | some step => do return some (← step)

/-- Statements under one condition. -/
def guarded (test : CSharp.Expr) (body : Block) : CSharp.Stmt :=
  .ifElse [⟨test, body⟩] none

/-- A truth value for a mark or a flag. -/
def setMark (name : String) (value : Bool) : CSharp.Stmt :=
  .assign (.name name) (.ofBool value)

/-- `while`. With an `else`, a mark says that no `break` has left the loop. -/
def lowerWhile (names : LibraryNames) (test : Python.Expr) (body : Lower Block)
    (orelse : Option (Lower Block)) : Lower Block := do
  match orelse with
  | none =>
    let test ← lowerExpr names test
    let body ← breakable (.loop none) body
    return [.whileLoop test body]
  | some orelse =>
    let mark ← fresh "noBreak"
    let test ← lowerExpr names test
    let body ← breakable (.loop (some mark)) body
    let orelse ← orelse
    return [.flag mark true, .whileLoop test body, guarded (.name mark) orelse]

/-- The loop of a `for`, whose body starts with `first`. -/
def lowerForEach (names : LibraryNames) (isAsync : Bool) (target iter : Python.Expr) (first : Block)
    (body : Lower Block) : Lower CSharp.Stmt := do
  recordTarget target
  let iter ← lowerExpr names iter
  let item ← fresh "_it"
  let target ← lowerTarget names target
  let body ← breakable (.loop none) body
  return .forEach isAsync item iter (first ++ .assign target (.name item) :: body)

/-- `for`. With an `else`, a mark says that the body has run. -/
def lowerFor (names : LibraryNames) (isAsync : Bool) (target iter : Python.Expr)
    (body : Lower Block) (orelse : Option (Lower Block)) : Lower Block := do
  match orelse with
  | none => return [← lowerForEach names isAsync target iter [] body]
  | some orelse =>
    let mark ← fresh "loopExecuted"
    let loop ← lowerForEach names isAsync target iter [setMark mark true] body
    let orelse ← orelse
    return [.flag mark false, loop, guarded (.unary .not (.name mark)) orelse]

/-- `try`. The completion flag is set at the end of the body, and an `else` runs by it. -/
def lowerTry (body : Lower Block) (handlers : Lower (List CSharp.Catch))
    (orelse finalbody : Option (Lower Block)) : Lower Block := do
  let flag ← enterTry
  let body ← body
  let catches ← handlers
  let cleanup ← optionally finalbody
  let orelse ← optionally orelse
  modifyFrame (·.exitTry)
  return setMark flag false :: .tryCatch (body ++ [setMark flag true]) catches cleanup ::
    (orelse.map (guarded (.name flag))).toList

def lowerCaught (names : LibraryNames) (types : List Python.Expr) (name : Option String) :
    Render CSharp.Caught := do
  match types, name.map escapeIdentifier with
  | [], none => return .everything
  | [], some name => return .anyException name
  | [type], name => return .one (← lowerExpr names type) name
  | types, some name => return .oneOf name (← lowerList names types)
  | types, none =>
    let name ← fresh "ex"
    return .oneOf name (← lowerList names types)

def lowerResource (names : LibraryNames) (item : Python.WithItem) : Render CSharp.Resource := do
  item.target.forM recordTarget
  let value ← lowerExpr names item.context
  match item.target with
  | none => return ⟨none, value⟩
  | some target => return ⟨some (← lowerTarget names target), value⟩

def lowerResources (names : LibraryNames) : List Python.WithItem → Render (List CSharp.Resource)
  | [] => return []
  | item :: rest => do
    let resource ← lowerResource names item
    return resource :: (← lowerResources names rest)

/-- The label of a case; the guard is lowered before the pattern. -/
def lowerLabel (names : LibraryNames) (tupleSubject : Bool) (pattern : Python.Pattern)
    (guard : Option Python.Expr) : Render CSharp.Label := do
  let guard ← lowerOption names guard
  match pattern, guard with
  | .wildcard, none => return .default
  | .wildcard, some guard => return .case (.var "_") (some guard)
  | pattern, guard => return .case (← lowerCasePattern names tupleSubject pattern) guard

def isComment : Python.StmtKind → Bool
  | .comment _ => true
  | _ => false

/-- Whether a statement always leaves its block. -/
def isJump : Python.StmtKind → Bool
  | .returnStmt _ => true
  | .raiseStmt _ _ => true
  | .breakStmt => true
  | .continueStmt => true
  | _ => false

/-- Whether a block ends with a jump, comments aside. -/
def endsInJump (body : List Python.Stmt) : Bool :=
  (body.filter fun s => !isComment s.kind).getLast?.any fun s => isJump s.kind

/-- The statements of a section, which must not run on into the next one. -/
def sectionBody (source : List Python.Stmt) (body : Block) : Block :=
  if endsInJump source then body else body ++ [.break_]

def isTuple : Python.Expr → Bool
  | .tuple _ => true
  | _ => false

def lowerMatch (names : LibraryNames) (subject : Python.Expr)
    (sections : Lower (List CSharp.Section)) : Lower Block := do
  let subject ← lowerExpr names subject
  let sections ← breakable .switch sections
  return [.switch subject sections]

end PythonToCSharp.Lowering
