import PythonToCSharp.Scope.Frame

/-!
The stack of open scopes. The frame of the module lies at the bottom for good. Entering a scope
gives a handle, and only the handle of the innermost scope closes it.
-/

namespace PythonToCSharp.Scope

/-- Why a scope cannot be entered or left. -/
inductive Fault where
  | nestedModule
  | mismatch (expected actual : Nat)
  | underflow
  deriving DecidableEq, Repr

def Fault.message : Fault → String
  | .nestedModule => "a module frame can only be the outermost scope"
  | .mismatch expected actual =>
    "scope exited out of order: handle for depth " ++ toString expected ++ ", stack at depth " ++
      toString actual
  | .underflow => "scope stack would drop its module frame"

/-- The right to close a scope: the depth of the stack with that scope on top. -/
structure Handle where
  depth : Nat
  deriving DecidableEq, Repr

/-- The frame of the module and the frames above it, the innermost first. -/
structure Stack where
  root : Frame := { kind := .module_ }
  nested : List Frame := []

namespace Stack

def depth (stack : Stack) : Nat :=
  stack.nested.length + 1

def current (stack : Stack) : Frame :=
  stack.nested.headD stack.root

def modifyCurrent (f : Frame → Frame) (stack : Stack) : Stack :=
  match stack.nested with
  | [] => { stack with root := f stack.root }
  | frame :: rest => { stack with nested := f frame :: rest }

def modifyRoot (f : Frame → Frame) (stack : Stack) : Stack :=
  { stack with root := f stack.root }

def enter (stack : Stack) (kind : Kind) : Except Fault (Handle × Stack) :=
  if kind = .module_ then .error .nestedModule
  else
    let stack := { stack with nested := { kind := kind } :: stack.nested }
    .ok (⟨stack.depth⟩, stack)

/-- Closes the scope of a handle and gives its frame. -/
def exit (stack : Stack) (handle : Handle) : Except Fault (Frame × Stack) :=
  if handle.depth = stack.depth then
    match stack.nested with
    | [] => .error .underflow
    | frame :: rest => .ok (frame, { stack with nested := rest })
  else .error (.mismatch handle.depth stack.depth)

/-- The receiver that the innermost frames see; the body of a class hides the ones around it. -/
def receiverIn : List Frame → Option String
  | [] => none
  | frame :: rest => if frame.kind = .class_ then none else frame.receiver.or (receiverIn rest)

/-- The name that stands for the instance in the innermost method. -/
def receiver (stack : Stack) : Option String :=
  receiverIn stack.nested

/-- Records a field in the innermost class among some frames. -/
def addFieldIn (name : String) : List Frame → List Frame
  | [] => []
  | frame :: rest =>
    if frame.kind = .class_ then frame.addField name :: rest else frame :: addFieldIn name rest

/-- Records a field of the innermost class; without a class around there is nothing to record. -/
def addClassField (stack : Stack) (name : String) : Stack :=
  { stack with nested := addFieldIn name stack.nested }

def inClass (stack : Stack) : Bool :=
  stack.nested.any fun frame => frame.kind = .class_

end Stack

end PythonToCSharp.Scope
