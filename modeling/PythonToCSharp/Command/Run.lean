import PythonToCSharp.Command.Arguments
import PythonToCSharp.Config.Load
import PythonToCSharp.Lowering.Module
import PythonToCSharp.Python.Display
import PythonToCSharp.Reading.Module

/-!
A run of the command: the input is read, then printed as a tree, or lowered with the configured
options and written; then what was found is reported. The first failure ends the run.
-/

namespace PythonToCSharp.Command

/-- What a run asks of the world around it. -/
structure Host (m : Type → Type) where
  files : Files.Access m
  /-- The text on standard input. -/
  readStandardInput : m (Except String String)
  /-- The concrete tree of a source text. -/
  parse : String → m (Except String Concrete.Node)
  workDir : String
  /-- The directory that holds the configuration of the user. -/
  configHome : Option String

/-- What a run leaves: its exit status and what it prints. -/
structure Outcome where
  exit : Nat := 0
  output : String := ""
  errors : String := ""

inductive Failure where
  | reading (name cause : String)
  | config (error : Config.LoadError)
  | lowering (name : String) (fault : Lowering.Fault)
  | writing (path cause : String)

/-- What is said of a failure, with its cause. -/
def Failure.message : Failure → String
  | .reading name cause => "reading " ++ name ++ ": " ++ cause
  | .config error => error.message ++ ": " ++ error.cause
  | .lowering name fault => "translating " ++ name ++ ": " ++ fault.message
  | .writing path cause => "writing " ++ path ++ ": " ++ cause

def Failure.outcome (failure : Failure) : Outcome :=
  { exit := 1, errors := "error: " ++ failure.message ++ "\n" }

/-- Texts as lines behind the name of the input. -/
def named (name : String) (texts : List String) : String :=
  String.join (texts.map fun text => name ++ ":" ++ text ++ "\n")

def report (name : String) (format : Format) (diagnostics : List Diagnostic) : String :=
  match format with
  | .text => named name (diagnostics.map Diagnostic.display)
  | .json =>
    if diagnostics.isEmpty then "" else (Json.ofList Diagnostic.toJson diagnostics).compact ++ "\n"

variable {m : Type → Type} [Monad m]

def readInput (host : Host m) (input : String) : m (Except Failure String) := do
  if input = "-" then return (← host.readStandardInput).mapError (.reading "stdin")
  else return (← host.files.read input).mapError (.reading input)

/-- Writes the result and gives what is printed of it. -/
def writeOutput (host : Host m) (output : Option String) (text : String) :
    m (Except Failure String) := do
  match output with
  | none => return .ok text
  | some path => return (← host.files.write path text).mapError (.writing path) |>.map fun _ => ""

def runLower (host : Host m) (arguments : Arguments) (source : Python.Module) :
    ExceptT Failure m Outcome := do
  let layers := Config.layers host.configHome host.workDir arguments.config
  let options ← ExceptT.mk do return (← Config.load host.files layers).mapError Failure.config
  let result ← ExceptT.mk do
    return (lower options source).mapError (Failure.lowering arguments.input)
  let output ← ExceptT.mk (writeOutput host arguments.output result.code)
  return {
    exit := if arguments.strict && !result.diagnostics.isEmpty then 2 else 0
    output
    errors := report arguments.input arguments.format result.diagnostics }

def execute (host : Host m) (arguments : Arguments) : ExceptT Failure m Outcome := do
  let source ← ExceptT.mk (readInput host arguments.input)
  let root ← ExceptT.mk do return (← host.parse source).mapError (Failure.reading arguments.input)
  match Reading.read root with
  | .error errors =>
    return { exit := 1, errors := named arguments.input (errors.map Concrete.SyntaxError.display) }
  | .ok module_ =>
    match arguments.emit with
    | .ast =>
      let output ← ExceptT.mk (writeOutput host arguments.output (module_.toJson.pretty ++ "\n"))
      return { output }
    | .csharp => runLower host arguments module_

def run (host : Host m) (arguments : Arguments) : m Outcome := do
  match ← (execute host arguments).run with
  | .ok outcome => return outcome
  | .error failure => return failure.outcome

end PythonToCSharp.Command
