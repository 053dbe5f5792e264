import PythonToCSharp.Layout.Forest

/-!
Writing a piece of code never fails and comes back to the level it started from: what `emit` appends
is the printing of the piece at that level, where a line stands behind its indentation and the
content of a block one level deeper.
-/

namespace PythonToCSharp.Layout

mutual

/-- The text of a piece of code that stands `level` levels deep. -/
def Node.print (width level : Nat) : Node → String
  | .line text => lineText width level text
  | .block content =>
    lineText width level "\x7b" ++ printAll width (level + 1) content ++ lineText width level "\x7d"
  | .deeper content => printAll width (level + 1) content

/-- The text of pieces of code one after the other. -/
def printAll (width level : Nat) : List Node → String
  | [] => ""
  | node :: rest => node.print width level ++ printAll width level rest

end

namespace Emitter

@[simp] theorem level_raw (out : Emitter) (text : String) : (out.raw text).level = out.level := rfl

@[simp] theorem width_raw (out : Emitter) (text : String) : (out.raw text).width = out.width := rfl

theorem line_eq_raw (out : Emitter) (text : String) :
    out.line text = out.raw (lineText out.width out.level text) := rfl

theorem raw_raw (out : Emitter) (first second : String) :
    (out.raw first).raw second = out.raw (first ++ second) := by
  simp [raw, String.append_assoc]

theorem raw_empty (out : Emitter) : out.raw "" = out := by
  simp [raw]

theorem indent_raw (out : Emitter) (text : String) : (out.raw text).indent = out.indent.raw text :=
  rfl

/-- One level back from one level deeper. -/
theorem dedent_indent_raw (out : Emitter) (text : String) :
    (out.indent.raw text).dedent = .ok (out.raw text) := rfl

end Emitter

mutual

/-- Writing a piece appends its printing and changes nothing else. -/
theorem Node.emit_eq (out : Emitter) :
    ∀ node : Node, node.emit out = .ok (out.raw (node.print out.width out.level))
  | .line text => rfl
  | .block content => by
    have h := emitAll_eq out.openBlock content
    simp only [Node.emit, h, Node.print, Bind.bind, Except.bind]
    rw [Emitter.openBlock, Emitter.line_eq_raw, Emitter.indent_raw, Emitter.raw_raw,
      Emitter.closeBlock, Emitter.dedent_indent_raw]
    simp only [Except.map, Emitter.line_eq_raw, Emitter.raw_raw, Emitter.level_raw,
      Emitter.width_raw]
    rfl
  | .deeper content => by
    simp only [Node.emit, emitAll_eq out.indent content, Node.print, Bind.bind, Except.bind]
    exact Emitter.dedent_indent_raw out _

theorem emitAll_eq (out : Emitter) :
    ∀ nodes : List Node, emitAll out nodes = .ok (out.raw (printAll out.width out.level nodes))
  | [] => by simp [emitAll, printAll, Emitter.raw_empty]
  | node :: rest => by
    simp only [emitAll, Node.emit_eq out node, Bind.bind, Except.bind, emitAll_eq _ rest, printAll]
    rw [Emitter.raw_raw, Emitter.level_raw, Emitter.width_raw]

end

end PythonToCSharp.Layout
