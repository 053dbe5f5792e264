import PythonToCSharp.Proofs.Findings.Reports

/-!
What simple statements and the heads of clauses and definitions report.
-/

namespace PythonToCSharp.Lowering

open Python (Construct StmtKind reportedDecorator reportedBase)
open Python.Expr (reportedList reportedList_append reportedOption reportedTargets reportedDeletes)
open Scope (Context)

variable {names : LibraryNames} {context : Context}

/-! ## Simple statements -/

variable (names)

theorem notes_lowerExprStmt (value : Python.Expr) :
    Notes names value.reportedAlone (lowerExprStmt names value) := by
  cases value with
  | str _ => exact .pure _
  | ellipsis => exact .pure _
  | yield value =>
    cases value with
    | none => exact .pure _
    | some value => exact .map (notes_lowerExpr names value) _
  | yieldFrom source =>
      exact .silent (notes_fresh "_it") fun _ => .map (notes_lowerExpr names source) _
  | _ => exact .map (notes_lowerExpr names _) _

theorem notes_lowerAssign (targets : List Python.Expr) (value : Python.Expr) :
    Notes names (value.reported ++ reportedTargets targets) (lowerAssign names targets value) := by
  refine .silent (.forM notes_recordTarget targets) fun _ =>
    .bind (notes_lowerExpr names value) fun _ => ?_
  refine (Notes.bind (notes_lowerTargets names targets) fun lowered => ?_).of_eq (List.append_nil _)
  cases lowered <;> exact .pure _

theorem notes_lowerAnnAssign (target hint : Python.Expr) (value : Option Python.Expr) :
    Notes names ((StmtKind.annAssign target hint value).reported context)
      (lowerAnnAssign names target hint value) := by
  have hrecord : Notes names [] (recordAnnotated target hint) := by
    cases target with
    | name id => exact notes_modifyFrame fun frame => frame.grows_recordHinted id _
    | _ => exact notes_recordTarget _
  rw [lowerAnnAssign_eq]
  refine .silent hrecord fun _ => ?_
  cases value with
  | none => exact .pure _
  | some value =>
      exact .bind (notes_lowerTarget names target) fun _ => .map (notes_lowerExpr names value) _

theorem notes_lowerAugAssign (target : Python.Expr) (op : Python.BinaryOp) (value : Python.Expr) :
    Notes names (target.reported ++ value.reported) (lowerAugAssign names target op value) :=
  .bind (notes_lowerExpr names target) fun _ => .map (notes_lowerExpr names value) _

theorem notes_lowerException (exc : Python.Expr) :
    Notes names exc.reported (lowerException names exc) := by
  cases exc with
  | name id => exact .ite (.map (notes_lowerName id) _) (notes_lowerName id)
  | call func args =>
      exact .bind (notes_lowerExpr names func) fun _ => .map (notes_lowerArgs names args) _
  | _ => exact notes_lowerExpr names _

/-- The cause of an exception is noted before the exception is lowered, and is not lowered itself.
-/
theorem notes_lowerRaise (exc cause : Option Python.Expr) :
    Notes names ((StmtKind.raiseStmt exc cause).reported context) (lowerRaise names exc cause) := by
  have hthrow (exc : Python.Expr) :
      Notes names exc.reported
        (do return [.throw_ (some (← lowerException names exc))] : Render Block) :=
    .map (notes_lowerException names exc) _
  cases cause with
  | none =>
    cases exc with
    | none => exact .pure _
    | some exc => exact hthrow exc
  | some cause =>
    cases exc with
    | none => exact .cons (notes_note (.cause none cause) rfl) fun _ => .pure _
    | some exc => exact .cons (notes_note (.cause (some exc) cause) rfl) fun _ => hthrow exc

mutual

theorem notes_lowerDelete (target : Python.Expr) :
    Notes names target.reportedDeleted (lowerDelete names target) := by
  cases target with
  | subscript value index =>
    exact .cons (notes_note (.deletedItem value index) rfl) fun _ =>
      .bind (notes_lowerExpr names value) fun _ =>
      .map (notes_lowerList names index) _
  | tuple items => exact notes_lowerDeletes items
  | list items => exact notes_lowerDeletes items
  | _ => exact .map (notes_lowerExpr names _) _

theorem notes_lowerDeletes :
    ∀ targets : List Python.Expr, Notes names (reportedDeletes targets) (lowerDeletes names targets)
  | [] => .pure _
  | target :: rest => .bind (notes_lowerDelete target) fun _ => .map (notes_lowerDeletes rest) _

end

theorem notes_lowerAssert (test : Python.Expr) (msg : Option Python.Expr) :
    Notes names (test.reported ++ reportedOption msg) (lowerAssert names test msg) :=
  .bind (notes_lowerExpr names test) fun _ => .map (notes_lowerOption names msg) _

theorem notes_lowerImport (entries : List Python.ImportName) :
    Notes names [] (lowerImport entries) :=
  .silent (.forM (fun _ => notes_addUsing _) entries) fun _ => .pure _

theorem notes_lowerImportFrom (path : String) (entries : List Python.ImportName) (wildcard : Bool) :
    Notes names ((StmtKind.importFrom path entries wildcard).reported context)
      (lowerImportFrom path entries wildcard) := by
  by_cases hrelative : path.toList.head? = some '.'
  · rw [StmtKind.reported, if_pos hrelative, lowerImportFrom, if_pos hrelative]
    exact .cons (notes_warn (.relativeImport path entries wildcard) rfl) fun _ => .pure _
  · rw [StmtKind.reported, if_neg hrelative, lowerImportFrom, if_neg hrelative]
    cases wildcard with
    | true => exact .silent (notes_addUsing _) fun _ => .pure _
    | false => exact .silent (.forM (fun _ => notes_addUsing _) entries) fun _ => .pure _

theorem notes_lowerGlobal (ids : List String) : Notes names [] (lowerGlobal ids) := by
  refine .silent (.forM (fun id => ?_) ids) fun _ => .pure _
  exact .silent (notes_modifyFrame fun frame => frame.grows_exclude id) fun _ =>
    notes_modifyRoot fun frame => frame.grows_record id

theorem notes_lowerNonlocal (ids : List String) : Notes names [] (lowerNonlocal ids) :=
  .silent (.forM (fun id => notes_modifyFrame fun frame => frame.grows_exclude id) ids)
    fun _ => .pure _

theorem notes_lowerUnsupported (kind text : String) :
    Notes names [.stmt (.unsupported kind text)] (lowerUnsupported kind text) :=
  .cons (notes_warn (.unsupportedStmt kind text) rfl) fun _ => .pure _

/-! ## Heads of clauses -/

theorem notes_lowerCaught (types : List Python.Expr) (name : Option String) :
    Notes names (reportedList types) (lowerCaught names types name) := by
  have hone (type : Python.Expr) (name : Option String) :
      Notes names (reportedList [type])
        (do return .one (← lowerExpr names type) name : Render CSharp.Caught) :=
    (Notes.map (notes_lowerExpr names type) _).of_eq (List.append_nil _).symm
  match types, name with
  | [], none => exact .pure _
  | [], some _ => exact .pure _
  | [type], none => exact hone type _
  | [type], some _ => exact hone type _
  | first :: second :: rest, some _ =>
      exact .map (notes_lowerList names (first :: second :: rest)) _
  | first :: second :: rest, none =>
    exact .silent (notes_fresh "ex") fun _ =>
      .map (notes_lowerList names (first :: second :: rest)) _

theorem notes_lowerResource (item : Python.WithItem) :
    Notes names item.reported (lowerResource names item) := by
  obtain ⟨context, target⟩ := item
  cases target with
  | none =>
    exact (Notes.silent (.pure _) fun _ => .map (notes_lowerExpr names context) _).of_eq
      (List.append_nil _).symm
  | some target =>
    have htarget :
        Notes names ([target].flatMap Python.Expr.reportedTarget) (lowerTarget names target) :=
      (notes_lowerTarget names target).of_eq (List.append_nil _).symm
    exact .silent (notes_recordTarget target) fun _ =>
      .bind (notes_lowerExpr names context) fun _ => .map htarget _

theorem notes_lowerResources (items : List Python.WithItem) :
    Notes names (items.flatMap Python.WithItem.reported) (lowerResources names items) := by
  induction items with
  | nil => exact .pure _
  | cons item rest ih => exact .bind (notes_lowerResource names item) fun _ => .map ih _

theorem notes_lowerLabel (tupleSubject : Bool) (pattern : Python.Pattern)
    (guard : Option Python.Expr) :
    Notes names (reportedOption guard ++ pattern.reported)
      (lowerLabel names tupleSubject pattern guard) := by
  refine .bind (notes_lowerOption names guard) fun guard => ?_
  split
  · exact .pure _
  · exact .pure _
  · exact .map (notes_lowerCasePattern names tupleSubject _) _

/-! ## Heads of definitions -/

/-- A decorator is reported behind what stands in it, by what it has become. -/
theorem notes_lowerDecorators (decorators : List Python.Expr) :
    Notes names (decorators.flatMap reportedDecorator) (lowerDecorators names decorators) := by
  induction decorators with
  | nil => exact .pure _
  | cons decorator rest ih =>
    refine (Notes.bindOf (notes_lowerExpr names decorator) fun s => ?_).of_eq
      (List.append_assoc _ _ _).symm
    exact .cons (notes_warn (.decorator decorator s) rfl) fun _ => .map ih _

theorem notes_lowerParam (param : Python.Param) :
    Notes names (reportedList param.loweredDefault) (lowerParam names param) := by
  obtain ⟨name, kind, hint, default⟩ := param
  cases kind with
  | normal =>
    refine (Notes.map (notes_lowerOption names default) _).of_eq ?_
    cases default with
    | none => rfl
    | some value => exact (List.append_nil _).symm
  | _ => exact .pure _

theorem notes_lowerParams (params : List Python.Param) :
    Notes names (reportedList (params.flatMap Python.Param.loweredDefault))
      (lowerParams names params) := by
  induction params with
  | nil => exact .pure _
  | cons param rest ih =>
    exact (Notes.bind (notes_lowerParam names param) fun _ => .map ih _).of_eq
      (reportedList_append _ _).symm

theorem notes_lowerBases (className : String) (bases : List Python.Arg) :
    Notes names (bases.flatMap (reportedBase className)) (lowerBases names className bases) := by
  induction bases with
  | nil => exact .pure _
  | cons arg rest ih =>
    cases arg with
    | positional base =>
      have hbase : Notes names (base.reported ++ rest.flatMap (reportedBase className)) (do
          let base ← lowerExpr names base
          return base :: (← lowerBases names className rest)) :=
        .bind (notes_lowerExpr names base) fun _ => .map ih _
      cases base with
      | name id => exact .ite ih (.silent (notes_lowerName id) fun _ => .map ih _)
      | _ => exact hbase
    | keyword name value =>
        exact .cons (notes_warn (.keywordBase className name value) rfl) fun _ => ih
    | star value => exact .cons (notes_warn (.starBase className value) rfl) fun _ => ih
    | doubleStar value => exact .cons (notes_warn (.doubleStarBase className value) rfl) fun _ => ih

end PythonToCSharp.Lowering
