import PythonToCSharp.Command.Run
import PythonToCSharp.Concrete.Dump
import PythonToCSharp.Files.Memory

/-!
The command line program. Parsing is the work of another program, which leaves the concrete tree of
`a.py` in `a.py.tree`, and that of standard input in `stdin.tree`.
-/

namespace PythonToCSharp.Command

/-- The cause of a failure of the file system. -/
def causeOf : IO.Error → String
  | .noFileOrDirectory _ _ _ => Files.Cause.missing.message
  | error => toString error

/-- The result of an action, or the cause of its failure. -/
def attempt {α : Type} (action : IO α) : IO (Except String α) := do
  try return .ok (← action)
  catch error => return .error (causeOf error)

def machineFiles : Files.Access IO where
  has path := do return (← attempt (IO.FS.Handle.mk path .read)).toBool
  read path := attempt (IO.FS.readFile path)
  write path text := attempt (IO.FS.writeFile path text)

/-- The tree that was left for an input. -/
def parseFrom (input source : String) : IO (Except String Concrete.Node) := do
  let path := (if input = "-" then "stdin" else input) ++ ".tree"
  match ← machineFiles.read path with
  | .error cause => return .error (path ++ ": " ++ cause)
  | .ok dump =>
      return (Concrete.Tree.ofDump? source dump).elim (.error (path ++ ": malformed tree")) .ok

def start (arguments : List String) : IO UInt32 := do
  match Arguments.parse arguments with
  | .error error =>
    IO.eprintln ("error: " ++ error.message)
    return 2
  | .ok arguments =>
    let home := (← IO.getEnv "HOME").map (· ++ "/.config")
    let host : Host IO := {
      files := machineFiles
      readStandardInput := do attempt (← IO.getStdin).readToEnd
      parse := parseFrom arguments.input
      workDir := (← IO.currentDir).toString
      configHome := (← IO.getEnv "XDG_CONFIG_HOME").or home }
    let outcome ← run host arguments
    IO.print outcome.output
    IO.eprint outcome.errors
    return outcome.exit.toUInt32

end PythonToCSharp.Command

def main (arguments : List String) : IO UInt32 :=
  PythonToCSharp.Command.start arguments
