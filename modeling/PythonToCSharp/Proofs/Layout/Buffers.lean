import PythonToCSharp.CSharp.StatementWriter
import PythonToCSharp.Proofs.Layout.Printing

/-!
Writing through side buffers never fails and comes back to the level it started from. At every
level, and with definitions nested in any way, it gives the same text as the layout does.
-/

namespace PythonToCSharp.Layout

/-! ## What steps write -/

/-- A step writes pieces of code, from whichever level it starts. -/
def Writes (step : Write) (nodes : List Node) : Prop :=
  ∀ out, step out = .ok (out.raw (printAll out.width out.level nodes))

theorem printAll_append (width level : Nat) (front rest : List Node) :
    printAll width level (front ++ rest) = printAll width level front ++
      printAll width level rest := by
  induction front with
  | nil => simp [printAll]
  | cons node front ih => simp [printAll, ih, String.append_assoc]

namespace Emitter

@[simp] theorem width_line (out : Emitter) (text : String) : (out.line text).width = out.width :=
  rfl

@[simp] theorem level_line (out : Emitter) (text : String) : (out.line text).level = out.level :=
  rfl

@[simp] theorem width_openBlock (out : Emitter) : out.openBlock.width = out.width := rfl

@[simp] theorem level_openBlock (out : Emitter) : out.openBlock.level = out.level + 1 := rfl

/-- A line in front of other pieces. -/
theorem line_raw (out : Emitter) (text : String) (nodes : List Node) :
    (out.line text).raw (printAll out.width out.level nodes) =
      out.raw (printAll out.width out.level (.line text :: nodes)) := by
  rw [line_eq_raw, raw_raw, printAll, Node.print]

theorem foldl_line {α : Type} (text : α → String) (items : List α) (out : Emitter) :
    items.foldl (fun out item => out.line (text item)) out =
      out.raw (printAll out.width out.level (items.map fun item => .line (text item))) := by
  induction items generalizing out with
  | nil => exact (out.raw_empty).symm
  | cons item items ih =>
    rw [List.foldl_cons, ih, List.map_cons, ← line_raw]
    rfl

end Emitter

namespace Writes

variable {first second content : Write} {nodes others : List Node}

theorem nothing : Writes .ok [] := fun out => by rw [printAll, out.raw_empty]

theorem emit (nodes : List Node) : Writes (Write.emit nodes) nodes := fun out => by
  rw [Write.emit, emitAll_eq]
  rfl

theorem next (hfirst : Writes first nodes) (hsecond : Writes second others) :
    Writes (fun out => do second (← first out)) (nodes ++ others) := fun out => by
  show (first out).bind second = _
  rw [hfirst out, printAll_append, ← Emitter.raw_raw]
  exact hsecond _

/-- Braces around a text that was written for their inside. -/
theorem close_block (out : Emitter) (nodes : List Node) :
    Write.close (out.openBlock.raw (printAll out.width (out.level + 1) nodes)) =
      .ok (out.raw (printAll out.width out.level [.block nodes])) := by
  show Except.ok (((out.line "\x7b").raw _).line "\x7d") = _
  simp only [Emitter.line_eq_raw, Emitter.raw_raw, Emitter.level_raw, Emitter.width_raw, printAll,
    Node.print, String.append_empty]

theorem braced (h : Writes content nodes) : Writes (Write.braced content) [.block nodes] :=
  fun out => by
  show (content out.openBlock).bind Write.close = _
  rw [h]
  exact close_block out nodes

theorem headed (head : String) (h : Writes content nodes) :
    Writes (fun out => Write.braced content (out.line head)) [.line head, .block nodes] :=
  fun out =>
  (h.braced _).trans (congrArg Except.ok (out.line_raw head _))

theorem labelled (label : String) (h : Writes content nodes) :
    Writes (fun out => Write.deeper content (out.line label)) [.line label, .deeper nodes] :=
  fun out => by
  show (content (out.line label).indent).bind _ = _
  rw [h, ← Emitter.line_raw, printAll, printAll, Node.print, String.append_empty]
  rfl

/-- The printing of pieces ends at the level it starts from. -/
theorem steady (h : Writes content nodes) : Writes (Write.steady content) nodes := fun out => by
  show (content out).bind _ = _
  rw [h]
  exact if_pos rfl

/-- What is written into a buffer is what would be written in place, at the level of the buffer. -/
theorem capture (h : Writes content nodes) (width level : Nat) :
    Write.capture width level content = .ok (printAll width level nodes) := by
  show (content { width, level }).bind _ = _
  rw [h]
  show (if level = level then _ else _) = _
  rw [if_pos rfl]
  show Except.ok ("" ++ _) = _
  rw [String.empty_append]

end Writes

/-! ## Empty texts -/

/-- Whether a piece of code is a line or a block, and so leaves a trace in every text. -/
def Node.shows : Node → Bool
  | .line _ => true
  | .block _ => true
  | .deeper _ => false

theorem lineText_ne_empty (width level : Nat) (text : String) : lineText width level text ≠ "" := by
  unfold lineText
  split
  · decide
  · simp

theorem Node.print_ne_empty {node : Node} (h : node.shows) (width level : Nat) :
    node.print width level ≠ "" := by
  cases node with
  | line text => exact lineText_ne_empty width level text
  | block content =>
    rw [Node.print]
    simp [lineText_ne_empty]
  | deeper content => cases h

/-- A text is empty only if nothing was written. -/
theorem printAll_eq_empty {nodes : List Node} (h : ∀ node ∈ nodes, node.shows) (width level : Nat) :
    printAll width level nodes = "" ↔ nodes = [] := by
  cases nodes with
  | nil => simp [printAll]
  | cons node rest =>
    have hfirst := Node.print_ne_empty (h node (by simp)) width level
    simp [printAll, hfirst]

end PythonToCSharp.Layout

namespace PythonToCSharp.CSharp

open Layout

/-! ## Writing follows the layout -/

theorem shows_optionalLine (line : Option String) : ∀ node ∈ optionalLine line, node.shows := by
  simp [optionalLine, Node.shows]

theorem shows_decoratorLines (decorators : List Expr) :
    ∀ node ∈ decoratorLines decorators, node.shows := by
  simp [decoratorLines, Node.shows]

theorem shows_layoutOptional (keyword : String) (body : Option (List Stmt)) :
    ∀ node ∈ layoutOptional keyword body, node.shows := by
  cases body <;> simp [layoutOptional, Node.shows]

theorem shows_layoutBranches (keyword : String) (branches : List Branch) :
    ∀ node ∈ layoutBranches keyword branches, node.shows := by
  induction branches generalizing keyword with
  | nil => simp [layoutBranches]
  | cons branch rest ih =>
    obtain ⟨test, body⟩ := branch
    simpa [layoutBranches, Node.shows] using ih "else if"

theorem shows_layoutCatches (catches : List Catch) :
    ∀ node ∈ layoutCatches catches, node.shows := by
  induction catches with
  | nil => simp [layoutCatches]
  | cons clause rest ih =>
    obtain ⟨caught, body⟩ := clause
    simpa [layoutCatches, Node.shows] using ih

theorem shows_class (declaration : Class) : ∀ node ∈ declaration.layout, node.shows := by
  obtain ⟨decorators, isPublic, name, bases, valueType, statics, fields, flags, initializer,
    members⟩ := declaration
  rw [Class.layout, List.forall_mem_append]
  exact ⟨shows_decoratorLines decorators, by simp [Node.shows]⟩

theorem shows_function (declaration : Function) : ∀ node ∈ declaration.layout, node.shows := by
  obtain ⟨decorators, header, valueType, vars, flags, body⟩ := declaration
  rw [Function.layout, List.forall_mem_append]
  exact ⟨shows_decoratorLines decorators, by simp [Node.shows]⟩

theorem shows_layout (s : Stmt) : ∀ node ∈ s.layout, node.shows := by
  cases s with
  | ifElse branches otherwise =>
    rw [Stmt.layout, List.forall_mem_append]
    exact ⟨shows_layoutBranches "if" branches, shows_layoutOptional "else" otherwise⟩
  | tryCatch body catches cleanup =>
    rw [Stmt.layout, List.forall_mem_append, List.forall_mem_append]
    exact ⟨⟨by simp [Node.shows], shows_layoutCatches catches⟩,
      shows_layoutOptional "finally" cleanup⟩
  | using_ isAsync resources body =>
    rw [Stmt.layout, List.forall_mem_append, List.forall_mem_map]
    simp [Node.shows]
  | return_ value => cases value <;> simp [Stmt.layout, Node.shows]
  | throw_ value => cases value <;> simp [Stmt.layout, Node.shows]
  | function declaration => exact shows_function declaration
  | type declaration => exact shows_class declaration
  | _ => simp [Stmt.layout, Node.shows]

theorem shows_layoutAll (body : List Stmt) : ∀ node ∈ layoutAll body, node.shows := by
  induction body with
  | nil => simp [layoutAll]
  | cons s rest ih =>
    rw [layoutAll, List.forall_mem_append]
    exact ⟨shows_layout s, ih⟩

/-- The static constructor is left out when its text is empty, as it is when there are no statements
for it. -/
theorem writeConstructor_eq (out : Emitter) (name : String) (initializer : List Stmt) :
    writeConstructor name (printAll out.width (out.level + 1) (layoutAll initializer)) out =
      .ok (out.raw (printAll out.width out.level
        (staticConstructor name (layoutAll initializer)))) := by
  have hempty := printAll_eq_empty (shows_layoutAll initializer) out.width (out.level + 1)
  rw [staticConstructor, writeConstructor]
  by_cases hnone : layoutAll initializer = []
  · rw [if_pos (hempty.2 hnone), if_pos (by simpa using hnone), printAll, Emitter.raw_empty]
  · rw [if_neg (mt hempty.1 hnone), if_neg (by simpa using hnone), ← Emitter.line_raw]
    exact Writes.close_block (out.line _) _

mutual

theorem Stmt.writes : ∀ s : Stmt, Writes s.write s.layout
  | .ifElse branches otherwise => by
    rw [Stmt.write, Stmt.layout]
    exact .next (writes_branches "if" branches) (writes_optional "else" otherwise)
  | .whileLoop test body => .headed _ (writes_all body)
  | .forEach isAsync item source body => .headed _ (writes_all body)
  | .tryCatch body catches cleanup => by
    rw [Stmt.write, Stmt.layout, List.append_assoc]
    exact .next (.headed "try" (writes_all body))
      (.next (writes_catches catches) (writes_optional "finally" cleanup))
  | .using_ isAsync resources body => by
    intro out
    show Write.braced (writeAll body) _ = _
    rw [Stmt.layout, Emitter.foldl_line, printAll_append, ← Emitter.raw_raw]
    exact (writes_all body).braced _
  | .switch subject sections => .headed _ (writes_sections sections)
  | .function declaration => declaration.writes
  | .type declaration => fun out => by
    show (Write.capture out.width out.level declaration.write).bind _ = _
    rw [declaration.writes.capture]
    rfl
  | .expr value => .emit _
  | .empty => .emit _
  | .assign target value => .emit _
  | .augment target op value => .emit _
  | .flag name value => .emit _
  | .comment text => .emit _
  | .yieldReturn value => .emit _
  | .yieldBreak => .emit _
  | .return_ value => .emit _
  | .throw_ value => .emit _
  | .break_ => .emit _
  | .continue_ => .emit _

theorem writes_all : ∀ body : List Stmt, Writes (writeAll body) (layoutAll body)
  | [] => .nothing
  | s :: rest => by
    rw [writeAll, layoutAll]
    exact .next s.writes.steady (writes_all rest)

theorem writes_optional (keyword : String) :
    ∀ body : Option (List Stmt), Writes (writeOptional keyword body) (layoutOptional keyword body)
  | none => .nothing
  | some body => .headed keyword (writes_all body)

theorem writes_branches (keyword : String) :
    ∀ branches : List Branch,
      Writes (writeBranches keyword branches) (layoutBranches keyword branches)
  | [] => .nothing
  | ⟨test, body⟩ :: rest => by
    rw [writeBranches, layoutBranches]
    exact .next (.headed _ (writes_all body)) (writes_branches "else if" rest)

theorem writes_catches :
    ∀ catches : List Catch, Writes (writeCatches catches) (layoutCatches catches)
  | [] => .nothing
  | ⟨caught, body⟩ :: rest => by
    rw [writeCatches, layoutCatches]
    exact .next (.headed _ (writes_all body)) (writes_catches rest)

theorem writes_sections :
    ∀ sections : List Section, Writes (writeSections sections) (layoutSections sections)
  | [] => .nothing
  | ⟨label, body⟩ :: rest => by
    rw [writeSections, layoutSections]
    exact .next (.labelled _ (writes_all body)) (writes_sections rest)

theorem captureEach_eq (width level : Nat) :
    ∀ body : List Stmt, captureEach width level body = .ok (printAll width level (layoutAll body))
  | [] => rfl
  | s :: rest => by
    rw [captureEach, s.writes.steady.capture, captureEach_eq width level rest, layoutAll,
      printAll_append]
    rfl

theorem Function.writes : ∀ declaration : Function, Writes declaration.write declaration.layout
  | ⟨decorators, header, valueType, vars, flags, body⟩ => by
    rw [Function.write, Function.layout]
    refine .next (.emit _) fun out => ?_
    show (Write.capture out.width (out.level + 1) (writeAll body)).bind _ = _
    rw [(writes_all body).capture]
    show (Write.emit _ (out.line header.text).openBlock).bind _ = _
    rw [Writes.emit]
    show Write.close
      (((out.line header.text).openBlock.raw (printAll out.width (out.level + 1) _)).raw _) = _
    rw [Emitter.raw_raw, ← printAll_append, ← Emitter.line_raw]
    exact Writes.close_block (out.line header.text) _

theorem Class.writes : ∀ declaration : Class, Writes declaration.write declaration.layout
  | ⟨decorators, isPublic, name, bases, valueType, statics, fields, flags, initializer,
      members⟩ => by
    rw [Class.write, Class.layout]
    refine .next (.emit _) fun out => ?_
    rw [captureEach_eq, captureEach_eq]
    show (Write.emit _ (out.line (classHead isPublic name bases)).openBlock).bind _ = _
    rw [Writes.emit]
    simp only [Emitter.width_openBlock, Emitter.level_openBlock, Emitter.width_line,
      Emitter.level_line]
    have hconstructor :=
      writeConstructor_eq ((out.line (classHead isPublic name bases)).openBlock.raw
      (printAll out.width (out.level + 1) (classDeclarations valueType statics fields flags)))
        name initializer
    simp only [Emitter.width_raw, Emitter.level_raw, Emitter.width_openBlock,
      Emitter.level_openBlock, Emitter.width_line, Emitter.level_line] at hconstructor
    show (writeConstructor _ _ _).bind _ = _
    rw [hconstructor]
    show Write.close (((((out.line _).openBlock.raw _).raw _)).raw _) = _
    rw [Emitter.raw_raw, Emitter.raw_raw, ← String.append_assoc, ← printAll_append,
      ← printAll_append, ← Emitter.line_raw]
    exact Writes.close_block (out.line _) _

end

/-! ## Files -/

/-- A blank line is put behind what has been written exactly if the layout has one there. -/
theorem appendType_eq {before : List Node} (h : ∀ node ∈ before, node.shows) (width : Nat)
    (nodes : List Node) :
    appendType (({ width := width } : Emitter).raw (printAll width 0 before))
      (printAll width 0 nodes) =
      ({ width := width } : Emitter).raw (printAll width 0 (separated before ++ nodes)) := by
  have hempty : (({ width := width } : Emitter).raw (printAll width 0 before)).isEmpty = true ↔
      before = [] := by
    rw [← printAll_eq_empty h width 0]
    simp [Emitter.isEmpty, Emitter.raw]
  rw [appendType, separated]
  by_cases hnone : before = []
  · rw [if_pos (hempty.2 hnone), if_pos (by simpa using hnone), hnone, printAll, Emitter.raw_empty,
      List.nil_append]
  · rw [if_neg (mt hempty.1 hnone), if_neg (by simpa using hnone), printAll_append, printAll_append,
      Emitter.line_eq_raw, Emitter.raw_raw, Emitter.raw_raw]
    simp only [printAll, Node.print, String.append_empty, String.append_assoc, Emitter.width_raw,
      Emitter.level_raw]

theorem shows_separated {before : List Node} (h : ∀ node ∈ before, node.shows) :
    ∀ node ∈ separated before, node.shows := by
  unfold separated
  split
  · simp
  · rw [List.forall_mem_append]
    exact ⟨h, by simp [Node.shows]⟩

theorem foldl_appendType (width : Nat) (types : List Class) {before : List Node}
    (h : ∀ node ∈ before, node.shows) :
    (types.map fun declaration => printAll width 0 declaration.layout).foldl appendType
        (({ width := width } : Emitter).raw (printAll width 0 before)) =
      ({ width := width } : Emitter).raw (printAll width 0
        (types.foldl (fun before declaration => separated before ++ declaration.layout)
          before)) := by
  induction types generalizing before with
  | nil => rfl
  | cons declaration rest ih =>
    have hnext : ∀ node ∈ separated before ++ declaration.layout, node.shows :=
      List.forall_mem_append.2 ⟨shows_separated h, shows_class declaration⟩
    rw [List.map_cons, List.foldl_cons, List.foldl_cons, appendType_eq h, ih hnext]

/-- A file that is written through buffers has the text of its layout. -/
theorem File.write_eq (width : Nat) (file : File) :
    file.write width = .ok (printAll width 0 file.layout) := by
  have htypes : (file.types.mapM fun declaration => Write.capture width 0 declaration.write) =
      .ok (file.types.map fun declaration => printAll width 0 declaration.layout) := by
    simp only [(Class.writes _).capture]
    exact List.mapM_pure
  have hshows : ∀ node ∈ separated (file.usings.map Node.line) ++
      (optionalLine (declarationLine "" file.valueType.text file.vars) ++
        optionalLine (flagLine "" file.flags)) ++
      layoutAll file.body, node.shows := by
    simp only [List.forall_mem_append]
    exact ⟨⟨shows_separated (by simp [Node.shows]), shows_optionalLine _, shows_optionalLine _⟩,
      shows_layoutAll file.body⟩
  rw [File.write, (writes_all file.body).capture, htypes]
  show (Write.emit _ _).bind _ = _
  rw [Writes.emit]
  show (Write.emit _ _).bind _ = _
  rw [Writes.emit]
  show Except.ok (Emitter.text (List.foldl appendType
    (((Emitter.raw _ (printAll width 0 _)).raw (printAll width 0 _)).raw (printAll width 0 _)) _)) =
      _
  rw [Emitter.raw_raw, Emitter.raw_raw, ← printAll_append, ← printAll_append, ← List.append_assoc,
    foldl_appendType width file.types hshows]
  simp [Emitter.raw, File.layout]

end PythonToCSharp.CSharp
