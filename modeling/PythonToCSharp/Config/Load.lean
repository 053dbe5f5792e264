import PythonToCSharp.Config.Decode
import PythonToCSharp.Files.Access
import PythonToCSharp.Toml.Document

/-!
Options out of layers of configuration files. The file of the user comes first, then that of the
project, then one that is named on the command line; a later layer overrides an earlier one key by
key.
-/

namespace PythonToCSharp.Config

/-- A configuration file. One that is not required may be missing. -/
structure Layer where
  path : String
  required : Bool := false

inductive LoadError where
  | unreadable (path cause : String)
  | malformed (path text : String) (fault : Toml.Fault)
  | unfit (mismatch : Mismatch)

def LoadError.message : LoadError → String
  | .unreadable path _ => "reading config " ++ path
  | .malformed path _ _ => "parsing config " ++ path
  | .unfit _ => "invalid translation options"

def LoadError.cause : LoadError → String
  | .unreadable _ cause => cause
  | .malformed _ text fault => fault.report text
  | .unfit mismatch => mismatch.message

/-- The place of a configuration file in the directory that holds it. -/
def fileIn (directory folder : String) : String :=
  directory ++ "/" ++ folder ++ "/config.toml"

/-- The layers for a run in a directory. -/
def layers (configHome : Option String) (workDir : String)
    (explicit : Option String) : List Layer :=
  (configHome.map fun home => { path := fileIn home "pycs" }).toList ++
    [{ path := fileIn workDir ".pycs" }] ++
    (explicit.map fun path => { path, required := true }).toList

variable {m : Type → Type} [Monad m]

/-- The table of a layer; none if its file may be missing and is. -/
def readLayer (files : Files.Access m) (layer : Layer) : m (Except LoadError (Option Table)) := do
  if !layer.required && !(← files.has layer.path) then return .ok none
  match ← files.read layer.path with
  | .error cause => return .error (.unreadable layer.path cause)
  | .ok text =>
    match Toml.parse text with
    | .error fault => return .error (.malformed layer.path text fault)
    | .ok table => return .ok (some table)

/-- The tables of layers, up to the first failure. -/
def readLayers (files : Files.Access m) : List Layer → m (Except LoadError (List Table))
  | [] => return .ok []
  | layer :: rest => do
    match ← readLayer files layer with
    | .error error => return .error error
    | .ok table =>
      match ← readLayers files rest with
      | .error error => return .error error
      | .ok tables => return .ok (table.toList ++ tables)

/-- The tables of layers as one. -/
def mergeAll (tables : List Table) : Table :=
  tables.foldl Table.merge []

/-- The options that layers give together. -/
def optionsOfLayers (tables : List Table) : Except LoadError Options :=
  (optionsOfTable (mergeAll tables)).mapError .unfit

def load (files : Files.Access m) (layers : List Layer) : m (Except LoadError Options) := do
  match ← readLayers files layers with
  | .error error => return .error error
  | .ok tables => return optionsOfLayers tables

end PythonToCSharp.Config
