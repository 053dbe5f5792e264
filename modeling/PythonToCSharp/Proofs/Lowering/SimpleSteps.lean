import PythonToCSharp.Proofs.Lowering.Rendering

/-!
The rules for simple statements stay at their place and only let frames grow.
-/

namespace PythonToCSharp.Lowering

/-! ## Targets -/

theorem keepsPlace_recordSingle (target : Python.Expr) : KeepsPlace (recordSingle target) := by
  have hfield (attr : String) :
      KeepsPlace (modify fun s =>
        { s with scopes := s.scopes.addClassField attr } : Render PUnit) :=
    fun s => ⟨⟨rfl, s.scopes.grows_addClassField attr⟩, rfl⟩
  unfold recordSingle
  split
  · exact keepsPlace_modifyFrame fun frame => frame.grows_record _
  · exact .bind keepsPlace_receiver fun _ => .ite (hfield _) (.pure _)
  · exact .pure _

theorem keepsPlace_recordTarget (target : Python.Expr) : KeepsPlace (recordTarget target) :=
  .forM keepsPlace_recordSingle _

variable (names : LibraryNames)

theorem keepsPlace_lowerTarget (target : Python.Expr) : KeepsPlace (lowerTarget names target) :=
  (composed_lowerTarget names target).keepsPlace

theorem keepsPlace_lowerTargets (targets : List Python.Expr) :
    KeepsPlace (lowerTargets names targets) :=
  (composed_lowerTargets names targets).keepsPlace

/-! ## Statements -/

theorem keepsPlace_lowerExprStmt (value : Python.Expr) : KeepsPlace (lowerExprStmt names value) :=
  (composed_lowerExprStmt names value).keepsPlace

theorem keepsPlace_lowerAssign (targets : List Python.Expr) (value : Python.Expr) :
    KeepsPlace (lowerAssign names targets value) := by
  refine .bind (.forM keepsPlace_recordTarget targets) fun _ => ?_
  refine .bind (keepsPlace_lowerExpr names value) fun _ => ?_
  refine .bind (keepsPlace_lowerTargets names targets) fun lowered => ?_
  cases lowered <;> exact .pure _

/-- Records the target of an annotated assignment; a name is recorded with its hint. -/
def recordAnnotated (target hint : Python.Expr) : Render PUnit :=
  match target with
  | .name id => modifyFrame (·.recordHinted id hint.hintText)
  | _ => recordTarget target

/-- The line for an annotated assignment, which stands only for one with a value. -/
def annotatedLine (target : Python.Expr) : Option Python.Expr → Render Block
  | none => return []
  | some value => do
    let target ← lowerTarget names target
    return [.assign target (← lowerExpr names value)]

theorem lowerAnnAssign_eq (target hint : Python.Expr) (value : Option Python.Expr) :
    lowerAnnAssign names target hint value =
      (recordAnnotated target hint >>= fun _ => annotatedLine names target value) := by
  cases value <;> cases target <;> rfl

theorem keepsPlace_recordAnnotated (target hint : Python.Expr) :
    KeepsPlace (recordAnnotated target hint) := by
  cases target with
  | name id => exact keepsPlace_modifyFrame fun frame => frame.grows_recordHinted id _
  | _ => exact keepsPlace_recordTarget _

theorem keepsPlace_lowerAnnAssign (target hint : Python.Expr) (value : Option Python.Expr) :
    KeepsPlace (lowerAnnAssign names target hint value) := by
  rw [lowerAnnAssign_eq]
  refine .bind (keepsPlace_recordAnnotated target hint) fun _ => ?_
  cases value with
  | none => exact .pure _
  | some value =>
      exact .bind (keepsPlace_lowerTarget names target) fun _ =>
        .map (keepsPlace_lowerExpr names value) _

theorem keepsPlace_lowerAugAssign (target : Python.Expr) (op : Python.BinaryOp)
    (value : Python.Expr) : KeepsPlace (lowerAugAssign names target op value) :=
  (composed_lowerAugAssign names target op value).keepsPlace

theorem keepsPlace_lowerBreak : KeepsPlace lowerBreak :=
  composed_lowerBreak.keepsPlace

theorem keepsPlace_lowerReturn (value : Option Python.Expr) :
    KeepsPlace (lowerReturn names value) :=
  (composed_lowerReturn names value).keepsPlace

theorem keepsPlace_lowerException (exc : Python.Expr) : KeepsPlace (lowerException names exc) :=
  (composed_lowerException names exc).keepsPlace

theorem keepsPlace_lowerRaise (exc cause : Option Python.Expr) :
    KeepsPlace (lowerRaise names exc cause) :=
  (composed_lowerRaise names exc cause).keepsPlace

theorem keepsPlace_lowerDelete (target : Python.Expr) : KeepsPlace (lowerDelete names target) :=
  (composed_lowerDelete names target).keepsPlace

theorem keepsPlace_lowerDeletes (targets : List Python.Expr) :
    KeepsPlace (lowerDeletes names targets) :=
  (composed_lowerDeletes names targets).keepsPlace

theorem keepsPlace_lowerAssert (test : Python.Expr) (msg : Option Python.Expr) :
    KeepsPlace (lowerAssert names test msg) :=
  (composed_lowerAssert names test msg).keepsPlace

theorem keepsPlace_lowerImport (entries : List Python.ImportName) :
    KeepsPlace (lowerImport entries) :=
  .bind (.forM (fun _ => keepsPlace_addUsing _) entries) fun _ => .pure _

theorem keepsPlace_lowerImportFrom (path : String) (entries : List Python.ImportName)
    (wildcard : Bool) : KeepsPlace (lowerImportFrom path entries wildcard) := by
  unfold lowerImportFrom
  split
  · exact .bind (keepsPlace_warn _ _) fun _ => .pure _
  · split
    · exact .bind (keepsPlace_addUsing _) fun _ => .pure _
    · exact .bind (.forM (fun _ => keepsPlace_addUsing _) entries) fun _ => .pure _

theorem keepsPlace_lowerGlobal (ids : List String) : KeepsPlace (lowerGlobal ids) := by
  refine .bind (.forM (fun id => ?_) ids) fun _ => .pure _
  exact .bind (keepsPlace_modifyFrame fun frame => frame.grows_exclude id) fun _ =>
    keepsPlace_modifyRoot fun frame => frame.grows_record id

theorem keepsPlace_lowerNonlocal (ids : List String) : KeepsPlace (lowerNonlocal ids) :=
  .bind (.forM (fun id => keepsPlace_modifyFrame fun frame => frame.grows_exclude id) ids)
    fun _ => .pure _

theorem keepsPlace_lowerUnsupported (kind text : String) :
    KeepsPlace (lowerUnsupported kind text) :=
  (composed_lowerUnsupported kind text).keepsPlace

end PythonToCSharp.Lowering
