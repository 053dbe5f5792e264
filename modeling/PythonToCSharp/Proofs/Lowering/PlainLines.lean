import PythonToCSharp.Lowering.Statement

/-!
Statements without blocks become plain lines, apart from `return` and from `yield` as a statement:
lines that have no blocks, declare no variable and hand nothing to the caller.
-/

namespace PythonToCSharp.CSharp

/-- Whether a statement is a line that declares nothing and hands nothing to the caller. -/
def Stmt.isPlain : Stmt → Bool
  | .expr _ | .empty | .assign _ _ | .augment _ _ _ | .comment _ | .throw_ _ | .break_
  | .continue_ => true
  | _ => false

end PythonToCSharp.CSharp

namespace PythonToCSharp.Lowering

variable {α : Type}

/-- The block has plain lines only. -/
def PlainBlock (block : Block) : Prop :=
  ∀ line ∈ block, line.isPlain = true

/-- The step gives plain lines only. -/
def GivesPlain (step : Render Block) : Prop :=
  ∀ s, PlainBlock (step s).1

theorem plainBlock_nil : PlainBlock [] :=
  nofun

theorem plainBlock_single {line : CSharp.Stmt} (h : line.isPlain = true) : PlainBlock [line] :=
  List.forall_mem_singleton.2 h

theorem PlainBlock.append {first rest : Block} (hf : PlainBlock first) (hr : PlainBlock rest) :
    PlainBlock (first ++ rest) :=
  List.forall_mem_append.2 ⟨hf, hr⟩

theorem plainBlock_map {items : List α} {f : α → CSharp.Stmt}
    (h : ∀ item, (f item).isPlain = true) : PlainBlock (items.map f) :=
  List.forall_mem_map.2 fun item _ => h item

namespace GivesPlain

theorem pure {block : Block} (h : PlainBlock block) : GivesPlain (Pure.pure block) :=
  fun _ => h

theorem bind {x : Render α} {f : α → Render Block} (h : ∀ a, GivesPlain (f a)) :
    GivesPlain (x >>= f) :=
  fun s => h (x s).1 (x s).2

/-- One line, made from what a step gives. -/
theorem line {x : Render α} {f : α → CSharp.Stmt} (h : ∀ a, (f a).isPlain = true) :
    GivesPlain (do return [f (← x)]) :=
  bind fun a => pure (plainBlock_single (h a))

end GivesPlain

theorem isPlain_docLine (line : String) : (docLine line).isPlain = true := by
  unfold docLine
  dsimp only
  split <;> rfl

variable (names : LibraryNames)

/-- An expression as a statement, unless it yields. -/
theorem givesPlain_lowerExprStmt {value : Python.Expr} (h : value.isYield = false) :
    GivesPlain (lowerExprStmt names value) := by
  cases value with
  | str literal => exact .pure (plainBlock_map isPlain_docLine)
  | ellipsis => exact .pure (plainBlock_single rfl)
  | yield value => cases h
  | yieldFrom source => cases h
  | _ => exact .line fun _ => rfl

theorem givesPlain_lowerAssign (targets : List Python.Expr) (value : Python.Expr) :
    GivesPlain (lowerAssign names targets value) := by
  refine .bind fun _ => .bind fun value => .bind fun lowered => ?_
  cases lowered with
  | nil => exact .pure (plainBlock_single rfl)
  | cons first rest => exact .pure ((plainBlock_single rfl).append (plainBlock_map fun _ => rfl))

theorem givesPlain_lowerAnnAssign (target hint : Python.Expr) (value : Option Python.Expr) :
    GivesPlain (lowerAnnAssign names target hint value) := by
  cases value with
  | none =>
    cases target with
    | _ => exact .bind fun _ => .pure plainBlock_nil
  | some value =>
    cases target with
    | _ => exact .bind fun _ => .bind fun _ => .line fun _ => rfl

theorem givesPlain_lowerAugAssign (target : Python.Expr) (op : Python.BinaryOp)
    (value : Python.Expr) : GivesPlain (lowerAugAssign names target op value) := by
  refine .bind fun target => .line fun value => ?_
  cases operatorFor names op <;> rfl

theorem givesPlain_lowerBreak : GivesPlain lowerBreak := by
  refine .bind fun frame => ?_
  split
  · exact .pure ((plainBlock_single rfl).append (plainBlock_single rfl))
  · exact .bind fun _ => .pure (plainBlock_single rfl)
  · exact .pure (plainBlock_single rfl)

theorem givesPlain_lowerRaise (exc cause : Option Python.Expr) :
    GivesPlain (lowerRaise names exc cause) := by
  have hthrow (exc : Python.Expr) :
      GivesPlain (do return [.throw_ (some (← lowerException names exc))]) := .line fun _ => rfl
  have hagain : GivesPlain (Pure.pure [.throw_ none]) := .pure (plainBlock_single rfl)
  cases exc with
  | none =>
    cases cause with
    | none => exact hagain
    | some _ => exact .bind fun _ => hagain
  | some exc =>
    cases cause with
    | none => exact hthrow exc
    | some _ => exact .bind fun _ => hthrow exc

mutual

theorem givesPlain_lowerDelete (target : Python.Expr) : GivesPlain (lowerDelete names target) := by
  cases target with
  | subscript _ _ => exact .bind fun _ => .bind fun _ => .line fun _ => rfl
  | tuple items => exact givesPlain_lowerDeletes items
  | list items => exact givesPlain_lowerDeletes items
  | _ => exact .line fun _ => rfl

theorem givesPlain_lowerDeletes :
    ∀ targets : List Python.Expr, GivesPlain (lowerDeletes names targets)
  | [] => .pure plainBlock_nil
  | target :: rest => fun s =>
    (givesPlain_lowerDelete target s).append
      (givesPlain_lowerDeletes rest (lowerDelete names target s).2)

end

theorem givesPlain_lowerAssert (test : Python.Expr) (msg : Option Python.Expr) :
    GivesPlain (lowerAssert names test msg) :=
  .bind fun _ => .line fun _ => rfl

theorem givesPlain_lowerImport (entries : List Python.ImportName) :
    GivesPlain (lowerImport entries) :=
  .bind fun _ => .pure plainBlock_nil

theorem givesPlain_lowerImportFrom (path : String) (entries : List Python.ImportName)
    (wildcard : Bool) : GivesPlain (lowerImportFrom path entries wildcard) := by
  unfold lowerImportFrom
  split
  · exact .bind fun _ => .pure (plainBlock_single rfl)
  · split
    · exact .bind fun _ => .pure plainBlock_nil
    · exact .bind fun _ => .pure plainBlock_nil

theorem givesPlain_lowerGlobal (ids : List String) : GivesPlain (lowerGlobal ids) :=
  .bind fun _ => .pure plainBlock_nil

theorem givesPlain_lowerNonlocal (ids : List String) : GivesPlain (lowerNonlocal ids) :=
  .bind fun _ => .pure plainBlock_nil

theorem plainBlock_keptAsComment (kind text : String) : PlainBlock (keptAsComment kind text) := by
  unfold keptAsComment
  split
  · exact plainBlock_single rfl
  · exact (plainBlock_single rfl).append (plainBlock_map fun _ => rfl)

theorem givesPlain_lowerUnsupported (kind text : String) :
    GivesPlain (lowerUnsupported kind text) :=
  .bind fun _ => .pure (plainBlock_keptAsComment kind text)

end PythonToCSharp.Lowering
