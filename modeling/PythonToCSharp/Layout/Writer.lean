import PythonToCSharp.Layout.Forest

/-!
Steps that write, in place or into a buffer of their own whose text is put in later. A block that is
closed more often than it was opened is refused, and so are a statement and a buffer that end at
another level than they started from.
-/

namespace PythonToCSharp.Layout

/-- Why a text could not be written. -/
inductive WriteFault where
  | underflow (fault : IndentUnderflow)
  /-- A statement ended at a level other than its first one. -/
  | shifted (before after : Nat)
  /-- A buffer ended at a level other than its first one. -/
  | unbalanced (found expected : Nat)

def WriteFault.message : WriteFault → String
  | .underflow fault => fault.message
  | .shifted before after =>
    "statement changed indentation from " ++ toString before ++ " to " ++ toString after
  | .unbalanced found expected =>
    "captured block ended at indent level " ++ toString found ++ " instead of " ++ toString expected

abbrev Write := Emitter → Except WriteFault Emitter

namespace Write

/-- Writes pieces of code in place. -/
def emit (nodes : List Node) : Write := fun out =>
  (emitAll out nodes).mapError .underflow

def close : Write := fun out =>
  out.closeBlock.mapError .underflow

/-- Writes between braces. -/
def braced (content : Write) : Write := fun out => do
  close (← content out.openBlock)

/-- Writes one level deeper. -/
def deeper (content : Write) : Write := fun out => do
  (← content out.indent).dedent.mapError .underflow

/-- Writes a statement, which has to come back to the level it started from. -/
def steady (statement : Write) : Write := fun out => do
  let after ← statement out
  if after.level = out.level then return after else throw (.shifted out.level after.level)

/-- The text that a step writes into a buffer of its own. The buffer starts at a level and has to
end at it. -/
def capture (width level : Nat) (content : Write) : Except WriteFault String := do
  let out ← content { width := width, level := level }
  if out.level = level then return out.text else throw (.unbalanced out.level level)

end Write

end PythonToCSharp.Layout
