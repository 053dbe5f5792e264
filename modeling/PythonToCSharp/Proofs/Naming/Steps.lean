import PythonToCSharp.Proofs.Lowering.PlainLines
import PythonToCSharp.Proofs.Lowering.SimpleSteps
import PythonToCSharp.Proofs.Lowering.Steps
import PythonToCSharp.Proofs.Naming.Rendering
import PythonToCSharp.Proofs.Naming.Statements

/-!
Steps that lower statements: which effects they have, and which variables stand in what they give.

`Acts` is said of a step in a body with given surroundings. The names that it is handed are taken to
have some property, and then the variables that are declared in place have it too; so each of them
was handed out.
-/

namespace PythonToCSharp.CSharp

mutual

/-- The variables that a statement declares in place: flags and the items of loops. Functions and
types in it have their own. -/
def Stmt.locals : Stmt → List String
  | .flag name _ => [name]
  | .ifElse branches otherwise => localsBranches branches ++ localsOptional otherwise
  | .whileLoop _ body => localsAll body
  | .forEach _ item _ body => item :: localsAll body
  | .tryCatch body catches cleanup => localsAll body ++
      (localsCatches catches ++ localsOptional cleanup)
  | .using_ _ _ body => localsAll body
  | .switch _ sections => localsSections sections
  | _ => []

/-- The variables that statements declare in place. -/
def localsAll : List Stmt → List String
  | [] => []
  | s :: rest => s.locals ++ localsAll rest

/-- The variables in a block that may be missing. -/
def localsOptional : Option (List Stmt) → List String
  | none => []
  | some body => localsAll body

/-- The variables in the branches of a conditional. -/
def localsBranches : List Branch → List String
  | [] => []
  | ⟨_, body⟩ :: rest => localsAll body ++ localsBranches rest

/-- The variables in catch clauses. -/
def localsCatches : List Catch → List String
  | [] => []
  | ⟨_, body⟩ :: rest => localsAll body ++ localsCatches rest

/-- The variables in the sections of a switch. -/
def localsSections : List Section → List String
  | [] => []
  | ⟨_, body⟩ :: rest => localsAll body ++ localsSections rest

end

theorem localsAll_append (first rest : List Stmt) :
    localsAll (first ++ rest) = localsAll first ++ localsAll rest := by
  induction first with
  | nil => rfl
  | cons s others ih => simp [localsAll, ih]

theorem localsAll_eq_nil {block : List Stmt} (h : ∀ s ∈ block, s.locals = []) :
    localsAll block = [] := by
  induction block with
  | nil => rfl
  | cons s rest ih =>
    rw [localsAll, h s List.mem_cons_self, ih fun other ho => h other (List.mem_cons_of_mem _ ho)]
    rfl

theorem Stmt.locals_of_isPlain {s : Stmt} (h : s.isPlain = true) : s.locals = [] := by
  cases s with
  | expr | empty | assign | augment | comment | throw_ | break_ | continue_ => rfl
  | _ => cases h

end PythonToCSharp.CSharp

namespace PythonToCSharp.Lowering

open CSharp (localsAll localsAll_append localsAll_eq_nil)
open Python.Expr (effectsList effectsOption)
open Scope (Effect Frame Stack Surroundings)

variable {α β : Type} {effect : Effect} {effects first rest : List Effect} {around : Surroundings}
variable {Good : String → Prop}

/-- The step succeeds in every body with the surroundings and has the effects. If what it is handed
is good, then what it gives satisfies `post`. -/
def Acts (around : Surroundings) (effects : List Effect) (Good : String → Prop) (post : α → Prop)
    (step : Lower α) : Prop :=
  ∀ s, s.scopes.current.surroundings = around →
    (∀ name ∈ s.scopes.ledger.answers effects, Good name) →
    ∃ a after, step s = .ok (a, after) ∧ after.scopes.ledger =
      s.scopes.ledger.performAll effects ∧ post a

/-- All variables that a block declares in place are good. -/
def GoodLocals (Good : String → Prop) (block : Block) : Prop :=
  ∀ name ∈ localsAll block, Good name

/-- The surroundings are still the same after effects. -/
theorem surroundings_of_ledger {s after : State}
    (h : after.scopes.ledger = s.scopes.ledger.performAll effects) :
    after.scopes.current.surroundings = s.scopes.current.surroundings := by
  have hledger (stack : Stack) :
      stack.ledger.current.surroundings = stack.current.surroundings := by
    rw [Stack.current_ledger]
    rfl
  rw [← hledger, h, Stack.surroundings_performAll, hledger]

namespace Acts

variable {P : α → Prop} {Q : β → Prop}

theorem pure {a : α} (h : P a) : Acts around [] Good P (Pure.pure a : Lower α) :=
  fun s _ _ => ⟨a, s, rfl, rfl, h⟩

theorem bind {x : Lower α} {f : α → Lower β} (hx : Acts around first Good P x)
    (hf : ∀ a, P a → Acts around rest Good Q (f a)) :
    Acts around (first ++ rest) Good Q (x >>= f) := by
  intro s hs hgood
  rw [Stack.answers_append] at hgood
  obtain ⟨a, middle, hrun, hmiddle, hP⟩ := hx s hs fun name hn =>
    hgood name (List.mem_append_left _ hn)
  -- the second step is handed the answers behind those of the first
  have hgood' : ∀ name ∈ middle.scopes.ledger.answers rest, Good name := by
    rw [hmiddle]
    exact fun name hn => hgood name (List.mem_append_right _ hn)
  obtain ⟨b, after, hrun', hafter, hQ⟩ :=
    hf a hP middle ((surroundings_of_ledger hmiddle).trans hs) hgood'
  refine ⟨b, after, (bind_run hrun).trans hrun', ?_, hQ⟩
  rw [hafter, hmiddle, Stack.performAll_append]

/-- A step with one effect comes first. -/
theorem cons {x : Lower α} {f : α → Lower β} (hx : Acts around [effect] Good P x)
    (hf : ∀ a, P a → Acts around rest Good Q (f a)) :
    Acts around (effect :: rest) Good Q (x >>= f) :=
  bind hx hf

/-- A step without effects comes first. -/
theorem silent {x : Lower α} {f : α → Lower β} (hx : Acts around [] Good P x)
    (hf : ∀ a, P a → Acts around rest Good Q (f a)) : Acts around rest Good Q (x >>= f) :=
  bind hx hf

theorem map {x : Lower α} (hx : Acts around effects Good P x) {f : α → β}
    (hf : ∀ a, P a → Q (f a)) : Acts around effects Good Q (do return f (← x)) := by
  intro s hs hgood
  obtain ⟨a, after, hrun, hafter, hP⟩ := hx s hs hgood
  exact ⟨f a, after, bind_run hrun, hafter, hf a hP⟩

theorem of_eq {x : Lower α} (hx : Acts around first Good P x) (h : first = rest) :
    Acts around rest Good P x :=
  h ▸ hx

theorem lift {x : Render α} (hx : Performs effects x) :
    Acts around effects Good (fun _ => True) (liftM x : Lower α) :=
  fun s _ _ => ⟨(x s).1, (x s).2, rfl, hx s, trivial⟩

/-- A step that lowers an expression comes first. -/
theorem lifted {x : Render α} {f : α → Lower β} (hx : Performs first x)
    (hf : ∀ a, Acts around rest Good Q (f a)) :
    Acts around (first ++ rest) Good Q (liftM x >>= f) :=
  bind (lift hx) fun a _ => hf a

theorem moveTo (span : Python.Span) :
    Acts around [] Good (fun _ => True) (liftM (Lowering.moveTo span) : Lower Unit) :=
  fun s _ _ => ⟨(), { s with span := span }, rfl, rfl, trivial⟩

theorem fresh (base : String) :
    Acts around [.here (.fresh base)] Good (fun name => Good name)
      (liftM (Lowering.fresh base) : Lower String) := by
  intro s _ hgood
  refine ⟨_, _, rfl, performs_fresh base s, hgood _ ?_⟩
  show (s.scopes.current.fresh base).1 ∈
    (s.scopes.ledger.current.answer? (.fresh base)).toList ++ []
  rw [Stack.current_ledger]
  exact List.mem_singleton_self _

theorem located {step : Lower α} (h : Acts around effects Good P step) (span : Python.Span) :
    Acts around effects Good P (located span step) := by
  intro s hs hgood
  obtain ⟨a, middle, hrun, hmiddle, hP⟩ := h { s with span := span } hs hgood
  exact ⟨a, { middle with span := s.span }, located_eq hrun, hmiddle, hP⟩

/-- What `break` would leave is no name of the frame. -/
theorem breakable {step : Lower α} (h : Acts around effects Good P step)
    (target : Scope.BreakTarget) : Acts around effects Good P (breakable target step) := by
  have hpush : Performs [] (modifyFrame (·.pushBreakTarget target)) := performs_hidden fun _ => rfl
  have hpop : Performs [] (modifyFrame (·.popBreakTarget)) := performs_hidden fun _ => rfl
  refine silent (lift hpush) fun _ _ => (bind h fun a ha => ?_).of_eq (List.append_nil effects)
  exact silent (lift hpop) fun _ _ => pure ha

end Acts

/-! ## Simple statements -/

/-- The block that the step gives declares no variable in place. -/
def NoLocals (step : Render Block) : Prop :=
  ∀ s, localsAll (step s).1 = []

theorem NoLocals.pure {block : Block} (h : localsAll block = []) : NoLocals (Pure.pure block) :=
  fun _ => h

theorem NoLocals.bind {x : Render α} {f : α → Render Block} (h : ∀ a, NoLocals (f a)) :
    NoLocals (x >>= f) :=
  fun s => h (x s).1 (x s).2

theorem GivesPlain.noLocals {x : Render Block} (h : GivesPlain x) : NoLocals x :=
  fun s => localsAll_eq_nil fun line hline => CSharp.Stmt.locals_of_isPlain (h s line hline)

/-- A step that lowers a statement without generated names. -/
theorem Acts.plain {x : Render Block} (hx : Performs effects x) (hn : NoLocals x) :
    Acts around effects Good (GoodLocals Good) (liftM x : Lower Block) := by
  intro s _ _
  refine ⟨(x s).1, (x s).2, rfl, hx s, ?_⟩
  intro name hname
  rw [hn s] at hname
  cases hname

theorem goodLocals_of_nil {block : Block} (h : localsAll block = []) : GoodLocals Good block := by
  intro name hname
  rw [h] at hname
  cases hname

theorem GoodLocals.append {front back : Block} (hf : GoodLocals Good front)
    (hb : GoodLocals Good back) : GoodLocals Good (front ++ back) := by
  intro name hname
  rw [localsAll_append] at hname
  rcases List.mem_append.1 hname with h | h
  · exact hf name h
  · exact hb name h

theorem Performs.behind {x : Render α} {f : α → Render β} (hx : Performs effects x)
    (hf : ∀ a, Performs [] (f a)) : Performs effects (x >>= f) :=
  (bind hx hf).of_eq (List.append_nil effects)

variable (names : LibraryNames)

theorem acts_lowerExprStmt (value : Python.Expr) :
    Acts around ((Python.StmtKind.expr value).simpleEffects around) Good (GoodLocals Good)
      (liftM (lowerExprStmt names value) : Lower Block) := by
  have hexpr := performs_lowerExpr names value
  cases value with
  | str literal => exact .plain (.pure _) (givesPlain_lowerExprStmt names rfl).noLocals
  | ellipsis => exact .plain (.pure _) (givesPlain_lowerExprStmt names rfl).noLocals
  | yield value =>
    cases value with
    | none => exact .plain (.pure _) (.pure rfl)
    | some value =>
        exact .plain (.map (performs_lowerExpr names value) _) (.bind fun _ => .pure rfl)
  | yieldFrom source =>
    -- the item of the loop is the one name that a statement without blocks is handed
    have hstep : Acts around (.here (.fresh "_it") :: source.effects) Good (GoodLocals Good) (do
        let item ← (liftM (fresh "_it") : Lower String)
        let source ← (liftM (lowerExpr names source) : Lower CSharp.Expr)
        return [.forEach false item source [.yieldReturn (.name item)]]) := by
      refine .cons (.fresh "_it") fun item hitem =>
        .map (.lift (performs_lowerExpr names source)) fun _ _ => ?_
      intro name hname
      rw [List.mem_singleton.1 hname]
      exact hitem
    exact hstep
  | _ => exact .plain (.map hexpr _) (givesPlain_lowerExprStmt names rfl).noLocals

theorem performs_lowerAssign (targets : List Python.Expr) (value : Python.Expr) :
    Performs (targets.flatMap Python.Expr.bindings ++ (value.effects ++ effectsList targets))
      (lowerAssign names targets value) := by
  refine .bind (.forM performs_recordTarget targets) fun _ => ?_
  refine .bind (performs_lowerExpr names value) fun _ => ?_
  refine .behind (performs_lowerTargets names targets) fun lowered => ?_
  cases lowered <;> exact .pure _

theorem performs_recordAnnotated (target hint : Python.Expr) :
    Performs (Python.hintedBindings target hint) (recordAnnotated target hint) := by
  cases target with
  | name id => exact performs_modifyFrame (.recordHinted id hint.hintText)
  | _ => exact performs_recordTarget _

theorem acts_lowerAnnAssign (target hint : Python.Expr) (value : Option Python.Expr) :
    Acts around ((Python.StmtKind.annAssign target hint value).simpleEffects around) Good
      (GoodLocals Good) (liftM (lowerAnnAssign names target hint value) : Lower Block) := by
  have hrecord := performs_recordAnnotated target hint
  refine .plain ?_ (givesPlain_lowerAnnAssign names target hint value).noLocals
  rw [lowerAnnAssign_eq]
  cases value with
  | none => exact .behind hrecord fun _ => .pure _
  | some value =>
    refine .bind hrecord fun _ => ?_
    exact .bind (performs_lowerTarget names target) fun _ => .map (performs_lowerExpr names value) _

theorem acts_lowerAugAssign (target : Python.Expr) (op : Python.BinaryOp) (value : Python.Expr) :
    Acts around (target.effects ++ value.effects) Good (GoodLocals Good)
      (liftM (lowerAugAssign names target op value) : Lower Block) :=
  .plain (.bind (performs_lowerExpr names target) fun _ => .map (performs_lowerExpr names value) _)
    (givesPlain_lowerAugAssign names target op value).noLocals

/-- What becomes of `return` depends on whether the body yields. -/
theorem acts_lowerReturn (value : Option Python.Expr) :
    Acts around (if around.isGenerator then [] else effectsOption value) Good (GoodLocals Good)
      (liftM (lowerReturn names value) : Lower Block) := by
  intro s hs hgood
  have hgenerator : s.scopes.current.isGenerator = around.isGenerator := by
    rw [← hs]
    rfl
  let rendered : Render Block :=
    if around.isGenerator then do
      if value.isSome then
        warn "return_statement" "iterator methods cannot return a value; value dropped"
      return [.yieldBreak]
    else return [.return_ (← lowerOption names value)]
  have hrun : (liftM (lowerReturn names value) : Lower Block) s =
      (liftM rendered : Lower Block) s := by
    show (liftM (if s.scopes.current.isGenerator then _ else _ : Render Block) : Lower Block) s = _
    rw [hgenerator]
  have hrendered : Acts around (if around.isGenerator then [] else effectsOption value) Good
      (GoodLocals Good) (liftM rendered : Lower Block) := by
    dsimp only [rendered]
    cases around.isGenerator with
    | true =>
      cases value with
      | none => exact .plain (.pure _) (.pure rfl)
      | some value =>
          exact .plain (.silent (performs_warn _ _) fun _ => .pure _) (.bind fun _ => .pure rfl)
    | false => exact .plain (.map (performs_lowerOption names value) _) (.bind fun _ => .pure rfl)
  rw [hrun]
  exact hrendered s hs hgood

theorem performs_lowerException (exc : Python.Expr) :
    Performs exc.effects (lowerException names exc) := by
  unfold lowerException
  split
  · exact .ite (.map (performs_lowerName _) _) (performs_lowerName _)
  · exact .bind (performs_lowerExpr names _) fun _ => .map (performs_lowerArgs names _) _
  · exact performs_lowerExpr names exc

theorem acts_lowerRaise (exc cause : Option Python.Expr) :
    Acts around (effectsOption exc) Good (GoodLocals Good)
      (liftM (lowerRaise names exc cause) : Lower Block) := by
  have hthrow (exc : Python.Expr) :
      Performs exc.effects
        (do return [.throw_ (some (← lowerException names exc))] : Render Block) :=
    .map (performs_lowerException names exc) _
  refine .plain ?_ (givesPlain_lowerRaise names exc cause).noLocals
  cases exc with
  | none =>
    cases cause with
    | none => exact .pure _
    | some _ => exact .silent (performs_note _ _) fun _ => .pure _
  | some exc =>
    cases cause with
    | none => exact hthrow exc
    | some _ => exact .silent (performs_note _ _) fun _ => hthrow exc

mutual

theorem performs_lowerDelete (target : Python.Expr) :
    Performs target.effects (lowerDelete names target) := by
  cases target with
  | subscript value index =>
    exact .silent (performs_note _ _) fun _ => .bind (performs_lowerExpr names value) fun _ =>
      .map (performs_lowerList names index) _
  | tuple items => exact performs_lowerDeletes items
  | list items => exact performs_lowerDeletes items
  | _ => exact .map (performs_lowerExpr names _) _

theorem performs_lowerDeletes :
    ∀ targets : List Python.Expr, Performs (effectsList targets) (lowerDeletes names targets)
  | [] => .pure _
  | target :: rest => .bind (performs_lowerDelete target) fun _ =>
      .map (performs_lowerDeletes rest) _

end

theorem acts_lowerAssert (test : Python.Expr) (msg : Option Python.Expr) :
    Acts around (test.effects ++ effectsOption msg) Good (GoodLocals Good)
      (liftM (lowerAssert names test msg) : Lower Block) :=
  .plain (.bind (performs_lowerExpr names test) fun _ => .map (performs_lowerOption names msg) _)
    (givesPlain_lowerAssert names test msg).noLocals

theorem performs_addUsings {f : α → String} (entries : List α) :
    Performs [] (entries.forM fun entry => addUsing (f entry)) :=
  (Performs.forM (fun _ => performs_addUsing _) entries).of_eq (by simp)

theorem acts_lowerImport (entries : List Python.ImportName) :
    Acts around [] Good (GoodLocals Good) (liftM (lowerImport entries) : Lower Block) :=
  .plain (.silent (performs_addUsings entries) fun _ => .pure _)
    (givesPlain_lowerImport entries).noLocals

theorem acts_lowerImportFrom (path : String) (entries : List Python.ImportName) (wildcard : Bool) :
    Acts around [] Good (GoodLocals Good)
      (liftM (lowerImportFrom path entries wildcard) : Lower Block) := by
  refine .plain ?_ (givesPlain_lowerImportFrom path entries wildcard).noLocals
  unfold lowerImportFrom
  split
  · exact .silent (performs_warn _ _) fun _ => .pure _
  · split
    · exact .silent (performs_addUsing _) fun _ => .pure _
    · exact .silent (performs_addUsings entries) fun _ => .pure _

theorem acts_lowerGlobal (ids : List String) :
    Acts around (ids.flatMap fun id => [.here (.exclude id), .inModule id]) Good (GoodLocals Good)
      (liftM (lowerGlobal ids) : Lower Block) := by
  refine .plain (.behind (.forM (fun id => ?_) ids) fun _ => .pure _)
    (givesPlain_lowerGlobal ids).noLocals
  exact .cons (performs_modifyFrame (.exclude id)) fun _ => performs_recordInModule id

theorem acts_lowerNonlocal (ids : List String) :
    Acts around (ids.flatMap fun id => [.here (.exclude id)]) Good (GoodLocals Good)
      (liftM (lowerNonlocal ids) : Lower Block) :=
  .plain (.behind (.forM (fun id => performs_modifyFrame (.exclude id)) ids) fun _ => .pure _)
    (givesPlain_lowerNonlocal ids).noLocals

theorem acts_lowerUnsupported (kind text : String) :
    Acts around [] Good (GoodLocals Good) (liftM (lowerUnsupported kind text) : Lower Block) :=
  .plain (.silent (performs_warn _ _) fun _ => .pure _)
    (givesPlain_lowerUnsupported kind text).noLocals

theorem acts_lowerBreak :
    Acts around [] Good (GoodLocals Good) (liftM lowerBreak : Lower Block) := by
  refine .plain (.silent performs_currentFrame fun frame => ?_) givesPlain_lowerBreak.noLocals
  split
  · exact .pure _
  · exact .silent (performs_warn _ _) fun _ => .pure _
  · exact .pure _

end PythonToCSharp.Lowering
