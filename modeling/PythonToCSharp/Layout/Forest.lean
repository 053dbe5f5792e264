import PythonToCSharp.Layout.Emitter

/-!
The shape of printed code: lines, blocks between braces, and stretches that stand one level deeper
without braces. The shape does not depend on the width of a level; `emit` writes it at any width,
from any level.
-/

namespace PythonToCSharp.Layout

/-- A piece of printed code. -/
inductive Node where
  | line (text : String)
  /-- Braces on lines of their own, with the content one level deeper. -/
  | block (content : List Node)
  /-- Content one level deeper, without braces. -/
  | deeper (content : List Node)

mutual

def Node.emit (out : Emitter) : Node → Except IndentUnderflow Emitter
  | .line text => .ok (out.line text)
  | .block content => do (← emitAll out.openBlock content).closeBlock
  | .deeper content => do (← emitAll out.indent content).dedent

def emitAll (out : Emitter) : List Node → Except IndentUnderflow Emitter
  | [] => .ok out
  | node :: rest => do emitAll (← node.emit out) rest

end

end PythonToCSharp.Layout
