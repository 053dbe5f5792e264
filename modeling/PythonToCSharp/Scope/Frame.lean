import PythonToCSharp.CSharp.Declaration
import PythonToCSharp.CSharp.Identifier

/-!
Scope frames. Python has no declarations, C# needs one for every variable; a frame collects what the
body of a module, a function or a class assigns, to be declared in one line.

A frame also hands out generated names that clash with nothing the body binds, keeps one completion
flag per depth of nested `try` statements, and knows what a `break` would leave.
-/

namespace PythonToCSharp.Scope

/-- What kind of body a frame belongs to. -/
inductive Kind where
  | module_
  | function
  | class_
  deriving DecidableEq, Repr

/-- What a `break` leaves. -/
inductive BreakTarget where
  /-- A loop, with the mark that is to be cleared before it is left, if it has one. -/
  | loop (mark : Option String)
  /-- A switch, from which `break` does not reach the loop around it. -/
  | switch
  deriving DecidableEq, Repr

/-- The names and marks of one body. -/
structure Frame where
  kind : Kind
  /-- Assigned names in the order of their first assignment, each with its type hint if it has one.
  -/
  vars : List (String × Option String) := []
  /-- Names that are never declared here: parameters and names of other scopes. -/
  excluded : List String := []
  /-- Attributes assigned through the receiver, each once, in order. -/
  fields : List String := []
  /-- Every name that the body binds somewhere. -/
  reserved : List String := []
  /-- The completion flags of `try` statements, one per depth. -/
  flags : List String := []
  tryDepth : Nat := 0
  /-- How many names have been tried for each base of generated names. -/
  counts : List (String × Nat) := []
  /-- The innermost target comes first. -/
  breakTargets : List BreakTarget := []
  receiver : Option String := none
  isGenerator : Bool := false

/-- Adds a text to the end of a list, unless it is there. -/
def insertNew (items : List String) (item : String) : List String :=
  if items.contains item then items else items ++ [item]

namespace Frame

def names (frame : Frame) : List String :=
  frame.vars.map Prod.fst

def isDeclared (frame : Frame) (name : String) : Bool :=
  frame.names.contains name

def hint? (frame : Frame) (name : String) : Option String :=
  (frame.vars.lookup name).join

/-- Whether recording a name would declare it: it is neither excluded nor declared. -/
def isNew (frame : Frame) (name : String) : Bool :=
  !(frame.excluded.contains name || frame.isDeclared name)

def record (frame : Frame) (name : String) : Frame :=
  if frame.isNew name then { frame with vars := frame.vars ++ [(name, none)] } else frame

/-- Records an assigned name with its type hint; the last hint counts, the first place stays. -/
def recordHinted (frame : Frame) (name hint : String) : Frame :=
  let frame := frame.record name
  { frame with
    vars := frame.vars.map fun (declared, old) =>
      (declared, if declared = name then some hint else old) }

/-- Keeps a name out of the declarations, from now on and from before. -/
def exclude (frame : Frame) (name : String) : Frame :=
  { frame with
    vars := frame.vars.filter fun entry => entry.1 != name
    excluded := insertNew frame.excluded name }

/-- Records an attribute that is assigned through the receiver. -/
def addField (frame : Frame) (name : String) : Frame :=
  { frame with fields := insertNew frame.fields name }

/-- Sets names aside that the body binds somewhere. -/
def reserve (frame : Frame) (names : List String) : Frame :=
  { frame with reserved := frame.reserved ++ names }

/-! ## Generated names -/

/-- The names that a generated name must not be. -/
def taken (frame : Frame) : List String :=
  frame.names ++ (frame.excluded ++ frame.reserved)

/-- The generated names of a base: the base, then the base with 1, 2 and so on behind it. -/
def candidate (base : String) (count : Nat) : String :=
  if count = 0 then base else base ++ toString count

/-- How many names of a base have been tried. -/
def count (frame : Frame) (base : String) : Nat :=
  (frame.counts.lookup base).getD 0

/-- The number of the first candidate from `start` on that is not taken. Among one more candidates
than there are taken names one is free, so the search ends. -/
def firstFree (taken : List String) (base : String) (start : Nat) : Nat :=
  start + (((List.range (taken.length + 1)).find? fun i =>
    !taken.contains (candidate base (start + i))).getD 0)

/-- A generated name that is free in this frame, and the frame after handing it out. -/
def fresh (frame : Frame) (base : String) : String × Frame :=
  let number := firstFree frame.taken base (frame.count base)
  (candidate base number,
    { frame with counts := (base, number + 1) :: frame.counts.filter fun entry => entry.1 != base })

/-! ## Completion flags -/

/-- The base of the names of completion flags. -/
def flagBase : String := "noException"

/-- Enters a `try` statement: gives the flag of the current depth, which is made if there is none
yet. -/
def enterTry (frame : Frame) : String × Frame :=
  match frame.flags[frame.tryDepth]? with
  | some flag => (flag, { frame with tryDepth := frame.tryDepth + 1 })
  | none =>
    let (flag, frame) := frame.fresh flagBase
    (flag, { frame with flags := frame.flags ++ [flag], tryDepth := frame.tryDepth + 1 })

def exitTry (frame : Frame) : Frame :=
  { frame with tryDepth := frame.tryDepth - 1 }

/-! ## Break targets and marks -/

/-- Enters something that `break` leaves. -/
def pushBreakTarget (frame : Frame) (target : BreakTarget) : Frame :=
  { frame with breakTargets := target :: frame.breakTargets }

/-- Leaves what was entered last. -/
def popBreakTarget (frame : Frame) : Frame :=
  { frame with breakTargets := frame.breakTargets.tail }

def breakTarget? (frame : Frame) : Option BreakTarget :=
  frame.breakTargets.head?

def setReceiver (frame : Frame) (name : String) : Frame :=
  { frame with receiver := some name }

def setGenerator (frame : Frame) : Frame :=
  { frame with isGenerator := true }

/-! ## Declarations -/

def declared (frame : Frame) : List String :=
  frame.names.map CSharp.escapeIdentifier

def declarationLine (frame : Frame) (lead type : String) : Option String :=
  CSharp.declarationLine lead type frame.declared

def flagLine (frame : Frame) (lead : String) : Option String :=
  CSharp.flagLine lead frame.flags

end Frame

end PythonToCSharp.Scope
