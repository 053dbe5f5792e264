import PythonToCSharp.Proofs.Lowering.Balance
import PythonToCSharp.Proofs.Naming.Identifiers

/-!
The names in the lines for a statement without blocks, and in the heads of the statements that have
blocks, are those that are listed for it, each spelled by itself.
-/

namespace PythonToCSharp.CSharp

/-! ## Names in statements -/

/-- The names in the defaults of parameters. -/
def identifiersParams : List Parameter → List String
  | [] => []
  | param :: rest => identifiersOption param.default ++ identifiersParams rest

/-- The names in a header. -/
def Header.identifiers : Header → List String
  | .constructor _ params => identifiersParams params
  | .function _ _ _ params => identifiersParams params

/-- The names in the head of a catch clause. -/
def Caught.identifiers : Caught → List String
  | .one type _ => type.identifiers
  | .oneOf _ types => identifiersList types
  | _ => []

/-- The names in a label. -/
def Label.identifiers : Label → List String
  | .default => []
  | .case pattern guard => pattern.identifiers ++ identifiersOption guard

/-- The names in an acquisition. -/
def Resource.identifiers (resource : Resource) : List String :=
  identifiersOption resource.target ++ resource.value.identifiers

mutual

/-- The names in a statement, as they are spelled, in the order in which they are written. Those of
a type are not among them. -/
def Stmt.identifiers : Stmt → List String
  | .expr value => value.identifiers
  | .assign target value => target.identifiers ++ value.identifiers
  | .augment target _ value => target.identifiers ++ value.identifiers
  | .ifElse branches otherwise => identifiersBranches branches ++ identifiersOtherwise otherwise
  | .whileLoop test body => test.identifiers ++ identifiersBlock body
  | .forEach _ _ source body => source.identifiers ++ identifiersBlock body
  | .tryCatch body catches cleanup =>
    identifiersBlock body ++ (identifiersCatches catches ++ identifiersOtherwise cleanup)
  | .using_ _ resources body => resources.flatMap Resource.identifiers ++ identifiersBlock body
  | .switch subject sections => subject.identifiers ++ identifiersSections sections
  | .yieldReturn value => value.identifiers
  | .return_ value => identifiersOption value
  | .throw_ value => identifiersOption value
  | .function ⟨decorators, header, _, _, _, body⟩ =>
    identifiersList decorators ++ (header.identifiers ++ identifiersBlock body)
  | _ => []

/-- The names in statements. -/
def identifiersBlock : List Stmt → List String
  | [] => []
  | s :: rest => s.identifiers ++ identifiersBlock rest

/-- The names in a block that may be missing. -/
def identifiersOtherwise : Option (List Stmt) → List String
  | none => []
  | some body => identifiersBlock body

/-- The names in the branches of a conditional. -/
def identifiersBranches : List Branch → List String
  | [] => []
  | ⟨test, body⟩ :: rest => test.identifiers ++ (identifiersBlock body ++ identifiersBranches rest)

/-- The names in catch clauses. -/
def identifiersCatches : List Catch → List String
  | [] => []
  | ⟨caught, body⟩ :: rest => caught.identifiers ++
      (identifiersBlock body ++ identifiersCatches rest)

/-- The names in the sections of a switch. -/
def identifiersSections : List Section → List String
  | [] => []
  | ⟨label, body⟩ :: rest => label.identifiers ++
      (identifiersBlock body ++ identifiersSections rest)

end

theorem identifiersBlock_append (first rest : List Stmt) :
    identifiersBlock (first ++ rest) = identifiersBlock first ++ identifiersBlock rest := by
  induction first with
  | nil => rfl
  | cons s others ih => rw [List.cons_append, identifiersBlock, ih, identifiersBlock,
      List.append_assoc]

theorem identifiersBlock_singleton (s : Stmt) : identifiersBlock [s] = s.identifiers :=
  List.append_nil _

theorem identifiersBlock_map {α : Type} {line : α → Stmt} (h : ∀ item, (line item).identifiers = [])
    (items : List α) : identifiersBlock (items.map line) = [] := by
  induction items with
  | nil => rfl
  | cons item rest ih => rw [List.map_cons, identifiersBlock, h, ih, List.append_nil]

end PythonToCSharp.CSharp

namespace PythonToCSharp.Lowering

open CSharp (Stmt.identifiers identifiersBlock identifiersBlock_append identifiersBlock_map
  identifiersBlock_singleton identifiersList identifiersOption identifiersParams)
open Python (Inside Origin assignOrigins augAssignOrigins)
open Python.Expr (deletedOriginsAll originsList originsOption)

variable {self : Option String} {origins : List Origin}

/-! ## Statements without blocks -/

/-- The lines are those whose names are listed. -/
abbrev ShownLines (self : Option String) (origins : List Origin) (block : Block) : Prop :=
  ShownAll self origins (identifiersBlock block)

theorem shownLines_singleton {line : CSharp.Stmt} (h : ShownAll self origins line.identifiers) :
    ShownLines self origins [line] := by
  rw [ShownLines, identifiersBlock_singleton]
  exact h

theorem identifiersBlock_docComment (body : String) : identifiersBlock (docComment body) = [] := by
  refine identifiersBlock_map (fun line => ?_) _
  unfold docLine
  dsimp only
  split <;> rfl

theorem identifiersBlock_keptAsComment (kind text : String) :
    identifiersBlock (keptAsComment kind text) = [] := by
  unfold keptAsComment
  split
  · rfl
  · exact identifiersBlock_map (fun _ => rfl) _

variable (names : LibraryNames)

theorem shown_lowerExprStmt (value : Python.Expr) (here : Inside) :
    YieldsThat self (ShownLines self ((Python.StmtKind.expr value).origins here))
      (lowerExprStmt names value) := by
  have hvalue : YieldsThat self (ShownAs self value) (lowerExpr names value) :=
    shown_lowerExpr names value
  cases value with
  | str literal =>
    refine .pure ?_
    rw [ShownLines, identifiersBlock_docComment]
    exact .nil
  | ellipsis => exact .pure .nil
  | yield value =>
    cases value with
    | none => exact .pure .nil
    | some value => exact .map (shown_lowerExpr names value) fun _ h => shownLines_singleton h
  | yieldFrom source =>
    refine .behind (keepsPlace_fresh _) fun item =>
      .map (shown_lowerExpr names source) fun lowered h => ?_
    exact shownLines_singleton (ShownAll.append h (.generated .nil))
  | _ => exact .map hvalue fun _ h => shownLines_singleton h

/-- The first target is written again behind each of the others. -/
theorem shownLines_copies {source : Python.Expr} {lowered : CSharp.Expr}
    (hsource : TargetShownAs self source lowered)
    {targets : List Python.Expr} {loweredTargets : List CSharp.Expr}
    (h : List.Forall₂ (TargetShownAs self) targets loweredTargets) :
    ShownLines self (targets.flatMap fun target => target.targetOrigins ++ source.targetOrigins)
      (loweredTargets.map fun target => .assign target lowered) := by
  induction h with
  | nil => exact .nil
  | cons htarget _ ih => exact ShownAll.append (htarget.append hsource) ih

theorem shown_lowerAssign (targets : List Python.Expr) (value : Python.Expr) :
    YieldsThat self (ShownLines self (assignOrigins value targets))
      (lowerAssign names targets value) := by
  refine .behind (.forM keepsPlace_recordTarget targets) fun _ => ?_
  refine .bind (shown_lowerExpr names value) fun lowered hvalue => ?_
  refine .bind (shown_lowerTargets names targets) fun loweredTargets htargets => ?_
  cases htargets with
  | nil => exact .pure (shownLines_singleton hvalue)
  | cons hfirst hrest =>
    refine .pure ?_
    have hlines := ShownAll.append (hfirst.append hvalue) (shownLines_copies hfirst hrest)
    rwa [List.append_assoc] at hlines

theorem shown_lowerAnnAssign (target hint : Python.Expr) (value : Option Python.Expr)
    (here : Inside) :
    YieldsThat self (ShownLines self ((Python.StmtKind.annAssign target hint value).origins here))
      (lowerAnnAssign names target hint value) := by
  rw [lowerAnnAssign_eq]
  refine .behind (keepsPlace_recordAnnotated target hint) fun _ => ?_
  cases value with
  | none => exact .pure .nil
  | some value =>
    exact .bind (shown_lowerTarget names target) fun _ ht =>
      .map (shown_lowerExpr names value) fun _ hv => shownLines_singleton (ht.append hv)

theorem shown_lowerAugAssign (target : Python.Expr) (op : Python.BinaryOp) (value : Python.Expr) :
    YieldsThat self (ShownLines self (augAssignOrigins target op value))
      (lowerAugAssign names target op value) := by
  refine .bind (shown_lowerExpr names target) fun lowered ht =>
    .map (shown_lowerExpr names value) fun arg hv => ?_
  have hhelper (name : String) :
      ShownLines self (target.origins ++ .generated :: (target.origins ++ value.origins))
      [.assign lowered (.apply name [lowered, arg])] := by
    refine shownLines_singleton (ht.append (.generated (ht.append ?_)))
    simpa [CSharp.identifiersArgs, ShownAs] using hv
  cases op with
  | pow => exact hhelper _
  | floorDiv => exact hhelper _
  | matMul => exact hhelper _
  | _ => exact shownLines_singleton (ht.append hv)

theorem shown_lowerException (exc : Python.Expr) :
    YieldsThat self (ShownAs self exc) (lowerException names exc) := by
  have hexc : YieldsThat self (ShownAs self exc) (lowerExpr names exc) := shown_lowerExpr names exc
  cases exc with
  | name id =>
    rw [lowerException]
    split
    · refine .map (shown_lowerName id) fun lowered h => ?_
      exact ShownAll.append h .nil
    · exact shown_lowerName id
  | call func args =>
    refine .bind (shown_lowerExpr names func) fun called hf =>
      .map (shown_lowerArgs names args) fun lowered ha => ?_
    split <;> exact hf.append ha
  | _ => exact hexc

theorem shown_lowerRaise (exc cause : Option Python.Expr) :
    YieldsThat self (ShownLines self (originsOption exc)) (lowerRaise names exc cause) := by
  have hthrow (exc : Python.Expr) :
      YieldsThat self (ShownLines self exc.origins)
        (do return [.throw_ (some (← lowerException names exc))] : Render Block) :=
    .map (shown_lowerException names exc) fun _ h => shownLines_singleton h
  cases exc with
  | none =>
    cases cause with
    | none => exact .pure .nil
    | some _ => exact .behind (keepsPlace_note _ _) fun _ => .pure .nil
  | some exc =>
    cases cause with
    | none => exact hthrow exc
    | some _ => exact .behind (keepsPlace_note _ _) fun _ => hthrow exc

theorem shownLines_nulled {target : CSharp.Expr} (h : ShownAll self origins target.identifiers) :
    ShownLines self origins [.assign target .null] := by
  have hline : ShownAll self (origins ++ []) (target.identifiers ++ []) := h.append .nil
  rw [List.append_nil origins] at hline
  exact shownLines_singleton hline

theorem identifiersArgs_positional (items : List CSharp.Expr) :
    CSharp.identifiersArgs (items.map .positional) = identifiersList items := by
  induction items with
  | nil => rfl
  | cons item rest ih => rw [List.map_cons, CSharp.identifiersArgs, ih, identifiersList]

mutual

theorem shown_lowerDelete (target : Python.Expr) :
    YieldsThat self (ShownLines self target.deletedOrigins) (lowerDelete names target) := by
  cases target with
  | subscript value index =>
    exact .behind (keepsPlace_note _ _) fun _ => .bind (shown_lowerExpr names value) fun _ hv =>
      .map (shown_lowerList names index) fun items hi => shownLines_singleton <| by
        rw [Stmt.identifiers, CSharp.Expr.identifiers, CSharp.Expr.identifiers,
          identifiersArgs_positional]
        exact hv.append (shownAll_list hi)
  | tuple items => exact shown_lowerDeletes items
  | list items => exact shown_lowerDeletes items
  | _ => exact .map (shown_lowerExpr names _) fun _ h => shownLines_nulled h

theorem shown_lowerDeletes : ∀ targets : List Python.Expr,
    YieldsThat self (ShownLines self (deletedOriginsAll targets)) (lowerDeletes names targets)
  | [] => .pure .nil
  | target :: rest =>
    .bind (shown_lowerDelete target) fun _ ht => .map (shown_lowerDeletes rest) fun _ hr => by
      rw [ShownLines, identifiersBlock_append]
      exact ht.append hr

end

theorem shown_lowerAssert (test : Python.Expr) (msg : Option Python.Expr) :
    YieldsThat self (ShownLines self (.generated :: (test.origins ++ originsOption msg)))
      (lowerAssert names test msg) := by
  refine .bind (shown_lowerExpr names test) fun lowered ht =>
    .map (shown_lowerOption names msg) fun last hm => ?_
  refine shownLines_singleton (.generated (ht.append ?_))
  cases last with
  | none => exact hm
  | some last => simpa [CSharp.identifiersArgs, identifiersOption] using hm

/-! ### Statements that write no names -/

theorem shown_nameless {x : Render Block} (hx : KeepsPlace x)
    (h : ∀ s, identifiersBlock (x s).1 = []) : YieldsThat self (ShownLines self []) x := by
  intro s hs
  refine ⟨?_, (hx s).1.scopes.receiverEq.trans hs⟩
  rw [ShownLines, h s]
  exact .nil

theorem shown_lowerImportFrom (path : String) (entries : List Python.ImportName) (wildcard : Bool) :
    YieldsThat self (ShownLines self []) (lowerImportFrom path entries wildcard) := by
  refine shown_nameless (keepsPlace_lowerImportFrom path entries wildcard) fun s => ?_
  unfold lowerImportFrom
  split
  · rfl
  · split <;> rfl

theorem shown_lowerUnsupported (kind text : String) :
    YieldsThat self (ShownLines self []) (lowerUnsupported kind text) :=
  shown_nameless (keepsPlace_lowerUnsupported kind text) fun _ =>
    identifiersBlock_keptAsComment kind text

/-! ## Heads of clauses -/

theorem shown_lowerCaught (types : List Python.Expr) (name : Option String) :
    YieldsThat self (fun caught => ShownAll self (originsList types) caught.identifiers)
      (lowerCaught names types name) := by
  have hlist : YieldsThat self (List.Forall₂ (ShownAs self) types) (lowerList names types) :=
    shown_lowerList names types
  unfold lowerCaught
  split
  · exact .pure .nil
  · exact .pure .nil
  · refine .map (shown_lowerExpr names _) fun _ h => ?_
    rw [originsList_singleton]
    exact h
  · exact .map hlist fun _ h => shownAll_list h
  · exact .behind (keepsPlace_fresh _) fun _ => .map hlist fun _ h => shownAll_list h

theorem shown_lowerResource (item : Python.WithItem) :
    YieldsThat self (fun resource => ShownAll self item.origins resource.identifiers)
      (lowerResource names item) := by
  obtain ⟨context, target⟩ := item
  cases target with
  | none => exact .behind (.pure _) fun _ => .map (shown_lowerExpr names context) fun _ h => h
  | some target =>
    refine .behind (keepsPlace_recordTarget target) fun _ =>
      .bind (shown_lowerExpr names context) fun _ hc => ?_
    exact .map (shown_lowerTarget names target) fun _ ht => ht.append hc

theorem shown_lowerResources : ∀ items : List Python.WithItem,
    YieldsThat self (fun resources => ShownAll self (items.flatMap Python.WithItem.origins)
      (resources.flatMap CSharp.Resource.identifiers)) (lowerResources names items)
  | [] => .pure .nil
  | item :: rest =>
    .bind (shown_lowerResource names item) fun _ hi =>
      .map (shown_lowerResources rest) fun _ hr => by
      rw [List.flatMap_cons, List.flatMap_cons]
      exact hi.append hr

theorem shown_lowerLabel (tupleSubject : Bool) (pattern : Python.Pattern)
    (guard : Option Python.Expr) :
    YieldsThat self (fun label =>
      ShownAll self (originsList pattern.literals ++ originsOption guard) label.identifiers)
      (lowerLabel names tupleSubject pattern guard) := by
  refine .bind (shown_lowerOption names guard) fun lowered hg => ?_
  split
  · exact .pure hg
  · exact .pure hg
  · exact .map (shown_lowerCasePattern names tupleSubject _) fun _ hp => hp.append hg

theorem identifiersBlock_sectionBody (source : List Python.Stmt) (body : Block) :
    identifiersBlock (sectionBody source body) = identifiersBlock body := by
  unfold sectionBody
  split
  · rfl
  · rw [identifiersBlock_append]
    exact List.append_nil _

/-! ## Heads of functions -/

theorem shown_lowerDecorators : ∀ decorators : List Python.Expr,
    YieldsThat self (List.Forall₂ (ShownAs self) decorators) (lowerDecorators names decorators)
  | [] => .pure .nil
  | decorator :: rest =>
    .bind (shown_lowerExpr names decorator) fun _ hd => .behind (keepsPlace_warn _ _) fun _ =>
      .map (shown_lowerDecorators rest) fun _ hr => .cons hd hr

theorem shown_lowerBases (className : String) (bases : List Python.Arg) :
    YieldsThat self (List.Forall₂ (ShownAs self) (bases.flatMap Python.Arg.base))
      (lowerBases names className bases) := by
  induction bases with
  | nil => exact .pure .nil
  | cons arg rest hr =>
    cases arg with
    | positional base =>
      have hb :
          YieldsThat self (List.Forall₂ (ShownAs self) (base :: rest.flatMap Python.Arg.base)) (do
          let base ← lowerExpr names base
          return base :: (← lowerBases names className rest)) :=
        .bind (shown_lowerExpr names base) fun _ hbase => .map hr fun _ hrest => .cons hbase hrest
      cases base with
      | name id =>
        by_cases hobject : (id == "object") = true
        · simpa [lowerBases, Python.Arg.base, hobject] using hr
        · have hkept : (Python.Arg.positional (.name id)).base = [.name id] := by
            simp [Python.Arg.base, hobject]
          rw [List.flatMap_cons, hkept]
          simpa [lowerBases, hobject, lowerExpr] using hb
      | _ => exact hb
    | keyword | star | doubleStar => exact .behind (keepsPlace_warn _ _) fun _ => hr

theorem shown_lowerParam (param : Python.Param) :
    YieldsThat self (fun lowered => ShownAll self (originsList param.loweredDefault)
      (identifiersOption lowered.default)) (lowerParam names param) := by
  obtain ⟨name, kind, annotation, default⟩ := param
  cases kind with
  | normal =>
    refine .map (shown_lowerOption names default) fun _ h => ?_
    cases default with
    | none => exact h
    | some value => rwa [Python.Param.loweredDefault, Option.toList_some, originsList_singleton]
  | varArgs => exact .pure .nil
  | kwArgs => exact .pure .nil

theorem shown_lowerParams : ∀ params : List Python.Param,
    YieldsThat self (fun lowered =>
      ShownAll self (originsList (params.flatMap Python.Param.loweredDefault))
      (identifiersParams lowered)) (lowerParams names params)
  | [] => .pure .nil
  | param :: rest =>
    .bind (shown_lowerParam names param) fun _ hp => .map (shown_lowerParams rest) fun _ hr => by
      rw [List.flatMap_cons, originsList_append]
      exact hp.append hr

theorem identifiers_functionHeader (owner : Option String) (role : Role)
    (definition : Python.FunctionDef) (params : List CSharp.Parameter) :
    (functionHeader names owner role definition params).identifiers = identifiersParams params := by
  unfold functionHeader
  cases owner with
  | none => rfl
  | some name =>
    dsimp only
    split <;> rfl

end PythonToCSharp.Lowering
