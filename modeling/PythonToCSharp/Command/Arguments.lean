/-!
The arguments of the command: an input, and options with a value or without. An option with a value
takes it behind an equals sign or from the next argument, a short one also right behind its letter.
Nothing but the verbosity may be given twice.
-/

namespace PythonToCSharp.Command

inductive Emit where
  | csharp
  | ast
  deriving DecidableEq, Repr

inductive Format where
  | text
  | json
  deriving DecidableEq, Repr

/-- What the command is asked to do. -/
structure Arguments where
  /-- The path of the input, or a minus sign for standard input. -/
  input : String
  output : Option String := none
  config : Option String := none
  emit : Emit := .csharp
  format : Format := .text
  strict : Bool := false
  verbosity : Nat := 0
  deriving DecidableEq, Repr

inductive UsageError where
  | unknown (argument : String)
  | repeated (option : String)
  | missingValue (option : String)
  | unexpectedValue (option : String)
  | invalidValue (option value : String)
  | missingInput
  deriving DecidableEq, Repr

def UsageError.message : UsageError → String
  | .unknown argument => "unexpected argument '" ++ argument ++ "' found"
  | .repeated option => "the argument '" ++ option ++ "' cannot be used multiple times"
  | .missingValue option => "a value is required for '" ++ option ++ "' but none was supplied"
  | .unexpectedValue option => "unexpected value for '" ++ option ++ "'"
  | .invalidValue option value => "invalid value '" ++ value ++ "' for '" ++ option ++ "'"
  | .missingInput => "the following required arguments were not provided: <INPUT>"

inductive Valued where
  | output
  | config
  | emit
  | diagnostics
  deriving DecidableEq, Repr

def Valued.name : Valued → String
  | .output => "--output"
  | .config => "--config"
  | .emit => "--emit"
  | .diagnostics => "--diagnostics"

def Valued.ofName? (name : String) : Option Valued :=
  [Valued.output, .config, .emit, .diagnostics].find? fun option => option.name = name

/-- The arguments that have been read. -/
structure Draft where
  input : Option String := none
  output : Option String := none
  config : Option String := none
  emit : Option Emit := none
  format : Option Format := none
  strict : Bool := false
  verbosity : Nat := 0
  /-- The option that waits for its value. -/
  pending : Option Valued := none
  /-- Only inputs may follow. -/
  ended : Bool := false

namespace Draft

def setInput (draft : Draft) (argument : String) : Except UsageError Draft :=
  if draft.input.isSome then .error (.unknown argument) else
    .ok { draft with input := some argument }

def setValue (draft : Draft) (option : Valued) (value : String) : Except UsageError Draft :=
  let draft := { draft with pending := none }
  match option with
  | .output =>
    if draft.output.isSome then .error (.repeated option.name) else
      .ok { draft with output := some value }
  | .config =>
    if draft.config.isSome then .error (.repeated option.name) else
      .ok { draft with config := some value }
  | .emit =>
    if draft.emit.isSome then .error (.repeated option.name)
    else if value = "csharp" then .ok { draft with emit := some .csharp }
    else if value = "ast" then .ok { draft with emit := some .ast }
    else .error (.invalidValue option.name value)
  | .diagnostics =>
    if draft.format.isSome then .error (.repeated option.name)
    else if value = "text" then .ok { draft with format := some .text }
    else if value = "json" then .ok { draft with format := some .json }
    else .error (.invalidValue option.name value)

/-- Takes a long option without a value, or one whose value follows. -/
def setOption (draft : Draft) (name : String) : Except UsageError Draft :=
  if name = "--strict" then
    if draft.strict then .error (.repeated name) else .ok { draft with strict := true }
  else if name = "--verbose" then .ok { draft with verbosity := draft.verbosity + 1 }
  else
    match Valued.ofName? name with
    | some option => .ok { draft with pending := some option }
    | none => .error (.unknown name)

/-- Takes a long option with its value. -/
def setOptionValue (draft : Draft) (name value : String) : Except UsageError Draft :=
  match Valued.ofName? name with
  | some option => draft.setValue option value
  | none =>
    if name = "--strict" || name = "--verbose" then .error (.unexpectedValue name)
    else .error (.unknown name)

/-- Takes the letters of short options. -/
def setLetters (draft : Draft) : List Char → Except UsageError Draft
  | [] => .ok draft
  | 'v' :: rest => setLetters { draft with verbosity := draft.verbosity + 1 } rest
  | ['o'] => .ok { draft with pending := some .output }
  | 'o' :: '=' :: value => draft.setValue .output (String.ofList value)
  | 'o' :: value => draft.setValue .output (String.ofList value)
  | c :: _ => .error (.unknown ("-" ++ c.toString))

/-- Takes an argument that starts like an option or stands for an input. -/
def take (draft : Draft) (argument : String) : Except UsageError Draft :=
  match argument.toList with
  | ['-'] => draft.setInput argument
  | ['-', '-'] => .ok { draft with ended := true }
  | '-' :: '-' :: rest =>
    match rest.span (· ≠ '=') with
    | (_, []) => draft.setOption argument
    | (name, _ :: value) => draft.setOptionValue ("--" ++ String.ofList name) (String.ofList value)
  | '-' :: letters => draft.setLetters letters
  | _ => draft.setInput argument

/-- Whether an argument can be the value of the option before it. -/
def isValue (argument : String) : Bool :=
  match argument.toList with
  | '-' :: _ :: _ => false
  | _ => true

def next (draft : Draft) (argument : String) : Except UsageError Draft :=
  match draft.pending with
  | some option =>
    if isValue argument then draft.setValue option argument else .error (.missingValue option.name)
  | none => if draft.ended then draft.setInput argument else draft.take argument

def finish (draft : Draft) : Except UsageError Arguments :=
  match draft.pending, draft.input with
  | some option, _ => .error (.missingValue option.name)
  | none, none => .error .missingInput
  | none, some input =>
    .ok {
      input, output := draft.output, config := draft.config, emit := draft.emit.getD .csharp
      format := draft.format.getD .text, strict := draft.strict, verbosity := draft.verbosity }

end Draft

def Arguments.parse (arguments : List String) : Except UsageError Arguments := do
  (← arguments.foldlM Draft.next {}).finish

end PythonToCSharp.Command
