import PythonToCSharp.CSharp.Statement
import PythonToCSharp.Diagnostic
import PythonToCSharp.Layout.Writer
import PythonToCSharp.Options
import PythonToCSharp.Scope.Stack

/-!
What lowering a Python tree keeps track of, and its two kinds of steps: `Render` for expressions and
patterns, which cannot fail, and `Lower` for statements, which would fail if scopes were left out of
order.
-/

namespace PythonToCSharp.Lowering

open Python (Span)

/-- What is known while a module is lowered. -/
structure State where
  /-- The place of the statement, clause or case that is being lowered. -/
  span : Span := Span.first
  scopes : Scope.Stack := {}
  /-- The findings so far, in order. -/
  diagnostics : List Diagnostic := []
  /-- The using directives so far, each once, in order. -/
  usings : List String := []
  /-- The classes that are to stand behind the top level, in the order in which they were finished.
  -/
  types : List CSharp.Class := []
  /-- The names of the classes whose bodies are being lowered, the innermost first. -/
  classNames : List String := []

/-- A failure that only a mistake in the lowering itself could cause. -/
inductive Fault where
  | scope (span : Span) (fault : Scope.Fault)
  | depth (span : Span) (depth : Nat) (moment : String)
  | indentation (span : Span) (fault : Layout.WriteFault)

/-- The place of a failure and what is said of it. -/
def Fault.parts : Fault → Span × String
  | .scope span fault => (span, fault.message)
  | .depth span found moment =>
    (span, "scope stack at depth " ++ toString found ++ " " ++ moment ++
      " the top level, expected 1")
  | .indentation span fault => (span, fault.message)

def Fault.message (fault : Fault) : String :=
  "internal error at " ++ toString fault.parts.1.line ++ ":" ++ toString fault.parts.1.column ++
    ": " ++ fault.parts.2

/-- A step that lowers an expression or a pattern. -/
abbrev Render := StateM State

/-- A step that lowers a statement. -/
abbrev Lower := StateT State (Except Fault)

instance : MonadLift Render Lower := ⟨fun x s => .ok (x.run s)⟩

/-! ## Findings -/

def report (severity : Severity) (kind : String) (span : Span) (message : String) : Render Unit :=
  modify fun s => { s with diagnostics := s.diagnostics ++ [⟨severity, kind, span, message⟩] }

def warn (kind message : String) : Render Unit := do
  report .warning kind (← get).span message

def note (kind message : String) : Render Unit := do
  report .note kind (← get).span message

/-! ## Scopes -/

def currentFrame : Render Scope.Frame := do
  return (← get).scopes.current

def modifyFrame (f : Scope.Frame → Scope.Frame) : Render Unit :=
  modify fun s => { s with scopes := s.scopes.modifyCurrent f }

def modifyRoot (f : Scope.Frame → Scope.Frame) : Render Unit :=
  modify fun s => { s with scopes := s.scopes.modifyRoot f }

/-- A generated name that is free in the innermost frame. -/
def fresh (base : String) : Render String := do
  let (name, frame) := (← currentFrame).fresh base
  modifyFrame fun _ => frame
  return name

/-- Enters a `try` statement and gives its completion flag. -/
def enterTry : Render String := do
  let (flag, frame) := (← currentFrame).enterTry
  modifyFrame fun _ => frame
  return flag

/-- The name that stands for the instance here. -/
def receiver : Render (Option String) := do
  return (← get).scopes.receiver

def enterScope (kind : Scope.Kind) : Lower Scope.Handle := do
  let s ← get
  match s.scopes.enter kind with
  | .ok (handle, scopes) =>
    set { s with scopes := scopes }
    return handle
  | .error fault => throw (.scope s.span fault)

def exitScope (handle : Scope.Handle) : Lower Scope.Frame := do
  let s ← get
  match s.scopes.exit handle with
  | .ok (frame, scopes) =>
    set { s with scopes := scopes }
    return frame
  | .error fault => throw (.scope s.span fault)

/-- A step inside a scope of its own, with the frame that it leaves. -/
def inScope {α : Type} (kind : Scope.Kind) (step : Lower α) : Lower (α × Scope.Frame) := do
  let handle ← enterScope kind
  let result ← step
  let frame ← exitScope handle
  return (result, frame)

/-! ## Places, directives and types -/

def moveTo (span : Span) : Render Unit :=
  modify fun s => { s with span := span }

/-- Adds a using directive, unless it is there. -/
def addUsing (directive : String) : Render Unit :=
  modify fun s => { s with usings := Scope.insertNew s.usings directive }

/-- Puts a finished class behind the top level. -/
def defer (type : CSharp.Class) : Render Unit :=
  modify fun s => { s with types := s.types ++ [type] }

def pushClassName (name : String) : Render Unit :=
  modify fun s => { s with classNames := name :: s.classNames }

def popClassName : Render Unit :=
  modify fun s => { s with classNames := s.classNames.tail }

end PythonToCSharp.Lowering
