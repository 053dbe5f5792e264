import PythonToCSharp.Proofs.Execution.CSharp
import PythonToCSharp.Proofs.Execution.Python
import PythonToCSharp.Proofs.Lowering.Balance
import PythonToCSharp.Proofs.Lowering.OperatorText
import PythonToCSharp.Proofs.Scope.Ownership

/-!
Which C# statements are emitted for a Python statement, said without the state of the lowering:
`Emits` relates the two, and keeps of the generated names what their use depends on. Every lowering
of a body emits its statements in this sense.

A block owns the marks and flags that are generated for it. It writes no others, apart from the mark
of the loop around it, which a `break` clears.
-/

namespace PythonToCSharp.Lowering

open CSharp (escapeIdentifier)
open Scope (Frame)

/-! ## What is emitted -/

section

variable (names : LibraryNames) (self : Option String)

/-- The expression is lowered so somewhere where `self` stands for the instance. -/
def LowersExpr (e : Python.Expr) (lowered : CSharp.Expr) : Prop :=
  ∃ s : State, s.scopes.receiver = self ∧ (lowerExpr names e s).1 = lowered

/-- The target of an assignment is lowered so somewhere where `self` stands for the instance. -/
def LowersTarget (target : Python.Expr) (lowered : CSharp.Expr) : Prop :=
  ∃ s : State, s.scopes.receiver = self ∧ (lowerTarget names target s).1 = lowered

/-- The statement is lowered so somewhere where `self` stands for the instance. -/
def LowersKind (kind : Python.StmtKind) (lines : Block) : Prop :=
  ∃ s after : State, s.scopes.receiver = self ∧ lowerKind names kind s = .ok (lines, after)

/-- What an `except` clause takes is lowered so somewhere where `self` stands for the instance. -/
def LowersCaught (handler : Python.Handler) (caught : CSharp.Caught) : Prop :=
  ∃ s : State,
    s.scopes.receiver = self ∧ (lowerCaught names handler.types handler.name s).1 = caught

end

/-- The statements that a body may be built from, with what is asked of their parts. -/
structure Fragment where
  simple : Python.StmtKind → Prop
  test : Python.Expr → Prop
  /-- The target and the source of a `for`. -/
  loop : Python.Expr → Python.Expr → Prop
  /-- Whether `try` is among them. -/
  tries : Prop

/-- The statements of bodies that are built from a fragment, in any nesting. -/
inductive Fragment.Builds (F : Fragment) : Python.StmtKind → Prop where
  | simple {kind : Python.StmtKind} (h : F.simple kind) : F.Builds kind
  | break_ : F.Builds .breakStmt
  | continue_ : F.Builds .continueStmt
  | ifChain {branches : List Python.Branch} {orelse : Option (List Python.Stmt)}
      (hn : branches ≠ []) (ht : ∀ branch ∈ branches, F.test branch.test)
      (hb : ∀ branch ∈ branches, ∀ s ∈ branch.body, F.Builds s.kind)
      (ho : ∀ body ∈ orelse, ∀ s ∈ body, F.Builds s.kind) : F.Builds (.ifChain branches orelse)
  | whileLoop {test : Python.Expr} {body : List Python.Stmt} {orelse : Option (List Python.Stmt)}
      (ht : F.test test) (hb : ∀ s ∈ body, F.Builds s.kind)
      (ho : ∀ block ∈ orelse, ∀ s ∈ block, F.Builds s.kind) : F.Builds (.whileLoop test body orelse)
  | forLoop {target iter : Python.Expr} {body : List Python.Stmt}
      {orelse : Option (List Python.Stmt)}
      (hl : F.loop target iter) (hb : ∀ s ∈ body, F.Builds s.kind)
      (ho : ∀ block ∈ orelse, ∀ s ∈ block, F.Builds s.kind) :
      F.Builds (.forLoop target iter body orelse false)
  | tryBlock {body : List Python.Stmt} {handlers : List Python.Handler}
      {orelse finalbody : Option (List Python.Stmt)} (ht : F.tries)
        (hb : ∀ s ∈ body, F.Builds s.kind)
      (hh : ∀ handler ∈ handlers, ∀ s ∈ handler.body, F.Builds s.kind)
      (ho : ∀ block ∈ orelse, ∀ s ∈ block, F.Builds s.kind)
      (hf : ∀ block ∈ finalbody, ∀ s ∈ block, F.Builds s.kind) :
      F.Builds (.tryBlock body handlers orelse finalbody)

/-- The body of one frame, with what is fixed while it is lowered. -/
structure Body where
  names : LibraryNames
  /-- The name that stands for the instance. -/
  self : Option String
  /-- The names that the body binds. -/
  reserved : List String
  /-- The completion flags that the body declares. -/
  flags : List String
  fragment : Fragment

namespace Body

variable (S : Body)

/-- The variables that the statements of the source assign to, as C# spells them. -/
def User (name : String) : Prop :=
  name = "this" ∨ ∃ id ∈ S.reserved, name = escapeIdentifier id

/-- The names that are generated, as far as they are no variables of the source. -/
def Hidden (name : String) : Prop :=
  (∃ base ∈ Frame.bases, ∃ n, name = Frame.candidate base n) ∧ ¬S.User name

/-- The lines have no control flow, and assign truth values only to variables of the source. -/
def Harmless (lines : Block) : Prop :=
  ∀ line ∈ lines, line.isLine = true ∧
    ∀ name value, line = .assign (.name name) (.ofBool value) → S.User name

/-- The names inside a part of a body whose own name is not among them. -/
structure Inside (own inner : String → Prop) (name : String) : Prop where
  owned : own name
  within : ∀ x, inner x → own x
  apart : ¬inner name

mutual

/-- The lines stand for a statement. `own` holds of the generated names that the lines may write,
and `mark` is the mark of the loop around them. -/
inductive Emits : (String → Prop) → Option String → Python.StmtKind → Block → Prop where
  | simple {own : String → Prop} {mark : Option String} {kind : Python.StmtKind} {lines : Block}
      (hs : S.fragment.simple kind) (hk : kind.isSimple = true)
      (hr : ∀ id ∈ kind.boundByForm, id ∈ S.reserved) (hl : LowersKind S.names S.self kind lines)
      (hh : S.Harmless lines) : Emits own mark kind lines
  | break_ {own : String → Prop} : Emits own none .breakStmt [.break_]
  | breakMarked {own : String → Prop} (mark : String) :
      Emits own (some mark) .breakStmt [setMark mark false, .break_]
  | continue_ {own : String → Prop} {mark : Option String} :
      Emits own mark .continueStmt [.continue_]
  | ifChain {own : String → Prop} {mark : Option String} {branches : List Python.Branch}
      {orelse : Option (List Python.Stmt)} {branches' : List CSharp.Branch} {orelse' : Option Block}
      (hb : EmitsBranches own mark branches branches') (ho : EmitsOption own mark orelse orelse') :
      Emits own mark (.ifChain branches orelse) [.ifElse branches' orelse']
  | whileLoop {own : String → Prop} {mark : Option String} {test : Python.Expr}
      {test' : CSharp.Expr} {body : List Python.Stmt} {body' : Block} (ht : S.fragment.test test)
      (hl : LowersExpr S.names S.self test test') (hb : EmitsBlock own none body body') :
      Emits own mark (.whileLoop test body none) [.whileLoop test' body']
  | whileElse {own inner : String → Prop} {mark : Option String} {name : String}
      {test : Python.Expr}
      {test' : CSharp.Expr} {body orelse : List Python.Stmt} {body' orelse' : Block}
      (hi : Inside own inner name) (ht : S.fragment.test test)
        (hl : LowersExpr S.names S.self test test')
      (hb : EmitsBlock inner (some name) body body')
      (ho : EmitsBlock inner mark orelse orelse') :
      Emits own mark (.whileLoop test body (some orelse))
        [.flag name true, .whileLoop test' body', guarded (.name name) orelse']
  | forLoop {own : String → Prop} {mark : Option String} {item : String} {target iter : Python.Expr}
      {target' iter' : CSharp.Expr} {body : List Python.Stmt} {body' : Block} (hu : ¬S.User item)
      (hf : S.fragment.loop target iter) (hr : ∀ id ∈ target.boundNames, id ∈ S.reserved)
      (hl : LowersExpr S.names S.self iter iter') (ht : LowersTarget S.names S.self target target')
      (hb : EmitsBlock own none body body') :
      Emits own mark (.forLoop target iter body none false)
        [.forEach false item iter' (.assign target' (.name item) :: body')]
  | forElse {own inner : String → Prop} {mark : Option String} {name item : String}
      {target iter : Python.Expr} {target' iter' : CSharp.Expr} {body orelse : List Python.Stmt}
      {body' orelse' : Block} (hu : ¬S.User item) (hi : Inside own inner name)
      (hf : S.fragment.loop target iter) (hr : ∀ id ∈ target.boundNames, id ∈ S.reserved)
      (hl : LowersExpr S.names S.self iter iter') (ht : LowersTarget S.names S.self target target')
      (hb : EmitsBlock inner none body body') (ho : EmitsBlock inner mark orelse orelse') :
      Emits own mark (.forLoop target iter body (some orelse) false)
        [.flag name false,
          .forEach false item iter' (setMark name true :: .assign target' (.name item) :: body'),
          guarded (.unary .not (.name name)) orelse']
  | tryBlock {own inner : String → Prop} {mark : Option String} {name : String}
      {body : List Python.Stmt}
      {handlers : List Python.Handler} {orelse finalbody : Option (List Python.Stmt)}
        {body' : Block}
      {catches : List CSharp.Catch} {orelse' cleanup : Option Block} (ht : S.fragment.tries)
      (hi : Inside own inner name) (hd : name ∈ S.flags)
      (hb : EmitsBlock inner mark body body') (hh : EmitsHandlers inner mark handlers catches)
      (hf : EmitsOption inner mark finalbody cleanup) (ho : EmitsOption inner mark orelse orelse') :
      Emits own mark (.tryBlock body handlers orelse finalbody)
        (setMark name false :: .tryCatch (body' ++ [setMark name true]) catches cleanup ::
          (orelse'.map (guarded (.name name))).toList)

/-- The lines stand for the statements of a block, one after the other. -/
inductive EmitsBlock : (String → Prop) → Option String → List Python.Stmt → Block → Prop where
  | nil {own : String → Prop} {mark : Option String} : EmitsBlock own mark [] []
  | cons {own : String → Prop} {mark : Option String} {s : Python.Stmt} {rest : List Python.Stmt}
      {first rest' : Block} (hs : Emits own mark s.kind first)
        (hr : EmitsBlock own mark rest rest') :
      EmitsBlock own mark (s :: rest) (first ++ rest')

/-- The branches stand for those of an `if`. -/
inductive EmitsBranches :
    (String → Prop) → Option String → List Python.Branch → List CSharp.Branch → Prop where
  | nil {own : String → Prop} {mark : Option String} : EmitsBranches own mark [] []
  | cons {own : String → Prop} {mark : Option String} {test : Python.Expr} {test' : CSharp.Expr}
      {body : List Python.Stmt} {body' : Block} {rest : List Python.Branch}
        {rest' : List CSharp.Branch}
      (ht : S.fragment.test test) (hl : LowersExpr S.names S.self test test')
      (hb : EmitsBlock own mark body body') (hr : EmitsBranches own mark rest rest') :
      EmitsBranches own mark (⟨test, body⟩ :: rest) (⟨test', body'⟩ :: rest')

/-- A block stands for one that may be missing. -/
inductive EmitsOption :
    (String → Prop) → Option String → Option (List Python.Stmt) → Option Block → Prop where
  | none {own : String → Prop} {mark : Option String} : EmitsOption own mark none none
  | some {own : String → Prop} {mark : Option String} {body : List Python.Stmt} {body' : Block}
      (hb : EmitsBlock own mark body body') : EmitsOption own mark (some body) (some body')

/-- The clauses stand for those of a `try`. -/
inductive EmitsHandlers :
    (String → Prop) → Option String → List Python.Handler → List CSharp.Catch → Prop where
  | nil {own : String → Prop} {mark : Option String} : EmitsHandlers own mark [] []
  | cons {own : String → Prop} {mark : Option String} {handler : Python.Handler}
      {caught : CSharp.Caught}
      {body' : Block} {rest : List Python.Handler} {rest' : List CSharp.Catch}
      (hc : LowersCaught S.names S.self handler caught)
        (hb : EmitsBlock own mark handler.body body')
      (hr : EmitsHandlers own mark rest rest') :
      EmitsHandlers own mark (handler :: rest) (⟨caught, body'⟩ :: rest')

end

/-! ## The lines of simple statements -/

/-- In the body, the step gives a result with a property. -/
def Gives {α : Type} (P : α → Prop) (step : Render α) : Prop :=
  ∀ s : State, s.scopes.receiver = S.self → P (step s).1

/-- If the target of an assignment is a variable, it is a variable of the source. -/
def AssignsUser (target : CSharp.Expr) : Prop :=
  ∀ name, target = .name name → S.User name

variable {S}

namespace Gives

variable {α β : Type} {P : α → Prop} {Q : β → Prop}

theorem pure {a : α} (h : P a) : S.Gives P (Pure.pure a : Render α) :=
  fun _ _ => h

theorem bind {x : Render α} {f : α → Render β} (hk : KeepsPlace x) (hx : S.Gives P x)
    (hf : ∀ a, P a → S.Gives Q (f a)) : S.Gives Q (x >>= f) := by
  intro s hs
  exact hf _ (hx s hs) _ ((hk s).1.scopes.receiverEq.trans hs)

/-- A step whose result does not matter. -/
theorem behind {x : Render α} {f : α → Render β} (hk : KeepsPlace x) (hf : ∀ a, S.Gives Q (f a)) :
    S.Gives Q (x >>= f) :=
  bind (P := fun _ => True) hk (fun _ _ => trivial) fun a _ => hf a

theorem map {x : Render α} {f : α → β} (hk : KeepsPlace x) (hf : ∀ a, Q (f a)) :
    S.Gives Q (do return f (← x)) :=
  behind hk fun a => pure (hf a)

end Gives

/-! ### Names among the targets -/

theorem name?_conjunction {first : CSharp.Expr} (h : first.name? = none) (rest : List CSharp.Expr) :
    (conjunction (first :: rest)).name? = none := by
  show (rest.foldl (.binary .and) first).name? = none
  induction rest generalizing first with
  | nil => exact h
  | cons next rest ih => exact ih rfl

theorem name?_compared (op : Python.CmpOp) (withNone : Bool) (left right : Render CSharp.Expr)
    (s : State) : (compared op withNone left right s).1.name? = none := by
  cases op <;> cases withNone <;> rfl

theorem name?_tupleOf (names : LibraryNames) :
    ∀ items : List CSharp.Expr, (tupleOf names items).name? = none
  | [] | [_] | _ :: _ :: _ => rfl

/-- Only names are lowered to names. -/
theorem name?_lowerExpr (names : LibraryNames) (s : State) (e : Python.Expr) :
    (lowerExpr names e s).1.name? = e.name?.map (spelling s.scopes.receiver) := by
  cases e with
  | name id =>
    have hy : Yields s.scopes.receiver (lowerName id) _ := .lowerName id
    exact congrArg CSharp.Expr.name? (hy s rfl).1
  | binary left op right => cases op <;> rfl
  | compare left links =>
    cases links with
    | nil => rfl
    | cons link rest => exact name?_conjunction (name?_compared _ _ _ _ _) _
  | tuple items => exact name?_tupleOf names _
  | comprehension kind element value clauses => cases kind <;> rfl
  | _ => rfl

theorem user_spelling {id : String} (h : id ∈ S.reserved) : S.User (spelling S.self id) := by
  unfold spelling
  split
  · exact .inl rfl
  · exact .inr ⟨id, h, rfl⟩

theorem assignsUser_lowerExpr {target : Python.Expr} (h : ∀ id ∈ target.name?, id ∈ S.reserved) :
    S.Gives S.AssignsUser (lowerExpr S.names target) := by
  intro s hs name hname
  have hn := name?_lowerExpr S.names s target
  rw [hname, hs] at hn
  obtain ⟨id, hid, rfl⟩ := Option.map_eq_some_iff.1 hn.symm
  exact user_spelling (h id hid)

theorem assignsUser_lowerTarget (target : Python.Expr)
    (h : ∀ id ∈ target.boundNames, id ∈ S.reserved) :
    S.Gives S.AssignsUser (lowerTarget S.names target) := by
  cases target with
  | tuple items =>
    refine .map (keepsPlace_lowerTargets S.names items) ?_
    intro lowered name hname
    cases hname
  | list items =>
    refine .map (keepsPlace_lowerTargets S.names items) ?_
    intro lowered name hname
    cases hname
  | starred value => exact .behind (keepsPlace_warn _ _) fun _ => assignsUser_lowerTarget value h
  | name id =>
    refine assignsUser_lowerExpr ?_
    rintro other ⟨⟩
    exact h id (show id ∈ [id] from List.mem_singleton_self id)
  | _ => exact assignsUser_lowerExpr (by simp [Python.Expr.name?])

theorem assignsUser_lowerTargets (targets : List Python.Expr)
    (h : ∀ id ∈ targets.flatMap Python.Expr.boundNames, id ∈ S.reserved) :
    S.Gives (fun lowered => ∀ target ∈ lowered, S.AssignsUser target)
      (lowerTargets S.names targets) := by
  induction targets with
  | nil => exact .pure (by simp)
  | cons target rest ih =>
    rw [List.flatMap_cons] at h
    have hfirst := assignsUser_lowerTarget target fun id hid => h id (List.mem_append_left _ hid)
    have hrest := ih fun id hid => h id (List.mem_append_right _ hid)
    refine .bind (keepsPlace_lowerTarget S.names target) hfirst fun first hf => ?_
    refine .bind (keepsPlace_lowerTargets S.names rest) hrest fun lowered hl => .pure ?_
    simpa using ⟨hf, hl⟩

/-! ### Simple statements -/

theorem harmless_nil : S.Harmless [] := by
  intro line hline
  cases hline

/-- A line that assigns no truth value. -/
theorem harmless_line {line : CSharp.Stmt} (hl : line.isLine = true)
    (hn : ∀ target value, line ≠ .assign target (.ofBool value)) : S.Harmless [line] := by
  intro other ho
  obtain rfl := List.mem_singleton.1 ho
  refine ⟨hl, ?_⟩
  intro name value hline
  exact absurd hline (hn _ _)

theorem harmless_setNull (target : CSharp.Expr) : S.Harmless [.assign target .null] := by
  refine harmless_line rfl ?_
  intro other value heq
  have hnull : CSharp.Expr.null = CSharp.Expr.ofBool value := (CSharp.Stmt.assign.inj heq).2
  cases value <;> simp [CSharp.Expr.null, CSharp.Expr.ofBool] at hnull

theorem Harmless.append {xs ys : Block} (hx : S.Harmless xs) (hy : S.Harmless ys) :
    S.Harmless (xs ++ ys) := by
  intro line hline
  rcases List.mem_append.1 hline with h | h
  · exact hx line h
  · exact hy line h

theorem harmless_comments {lines : Block} (h : ∀ line ∈ lines, ∃ text, line = .comment text) :
    S.Harmless lines := by
  intro line hline
  obtain ⟨text, rfl⟩ := h line hline
  refine ⟨rfl, ?_⟩
  intro name value hassign
  cases hassign

theorem harmless_assigns {targets : List CSharp.Expr} (h : ∀ target ∈ targets, S.AssignsUser target)
    (value : CSharp.Expr) : S.Harmless (targets.map fun target => .assign target value) := by
  intro line hline
  obtain ⟨target, ht, rfl⟩ := List.mem_map.1 hline
  refine ⟨rfl, ?_⟩
  intro name truth hassign
  cases hassign
  exact h _ ht name rfl

theorem harmless_assign {target : CSharp.Expr} (h : S.AssignsUser target) (value : CSharp.Expr) :
    S.Harmless [.assign target value] := by
  have hall : ∀ other ∈ [target], S.AssignsUser other := by simpa using h
  exact harmless_assigns hall value

theorem harmless_lowerExprStmt (value : Python.Expr) :
    S.Gives S.Harmless (lowerExprStmt S.names value) := by
  unfold lowerExprStmt
  split
  · refine .pure (harmless_comments ?_)
    intro line hline
    obtain ⟨text, -, rfl⟩ := List.mem_map.1 hline
    dsimp only [docLine, comment]
    split
    · exact ⟨_, rfl⟩
    · exact ⟨_, rfl⟩
  · exact .pure (harmless_line rfl nofun)
  · exact .pure (harmless_line rfl nofun)
  · exact .map (keepsPlace_lowerExpr S.names _) fun _ => harmless_line rfl nofun
  · refine .behind (keepsPlace_fresh _) fun item => ?_
    exact .map (keepsPlace_lowerExpr S.names _) fun _ => harmless_line rfl nofun
  · exact .map (keepsPlace_lowerExpr S.names _) fun _ => harmless_line rfl nofun

theorem harmless_lowerAssign {targets : List Python.Expr} (value : Python.Expr)
    (h : ∀ id ∈ targets.flatMap Python.Expr.boundNames, id ∈ S.reserved) :
    S.Gives S.Harmless (lowerAssign S.names targets value) := by
  refine .behind (.forM keepsPlace_recordTarget targets) fun _ => ?_
  refine .behind (keepsPlace_lowerExpr S.names value) fun value' => ?_
  refine .bind (keepsPlace_lowerTargets S.names targets) (assignsUser_lowerTargets targets h) ?_
  intro lowered hl
  cases lowered with
  | nil => exact .pure (harmless_line rfl nofun)
  | cons first rest =>
    refine .pure ?_
    have hfirst := harmless_assign (hl first List.mem_cons_self) value'
    exact hfirst.append (harmless_assigns
      (fun target ht => hl target (List.mem_cons_of_mem _ ht)) first)

theorem harmless_lowerAnnAssign {target : Python.Expr} (hint : Python.Expr)
    (value : Option Python.Expr) (h : ∀ id ∈ target.boundNames, id ∈ S.reserved) :
    S.Gives S.Harmless (lowerAnnAssign S.names target hint value) := by
  rw [lowerAnnAssign_eq]
  refine .behind (keepsPlace_recordAnnotated target hint) fun _ => ?_
  cases value with
  | none => exact .pure harmless_nil
  | some value =>
    refine .bind (keepsPlace_lowerTarget S.names target) (assignsUser_lowerTarget target h) ?_
    intro lowered hl
    refine .map (keepsPlace_lowerExpr S.names value) fun value' => ?_
    exact harmless_assign hl value'

theorem harmless_lowerAugAssign (target : Python.Expr) (op : Python.BinaryOp)
    (value : Python.Expr) : S.Gives S.Harmless (lowerAugAssign S.names target op value) := by
  refine .behind (keepsPlace_lowerExpr S.names target) fun _ => ?_
  refine .map (keepsPlace_lowerExpr S.names value) fun _ => ?_
  unfold augmented
  split
  · exact harmless_line rfl nofun
  · exact harmless_line rfl nofun

theorem harmless_lowerReturn (value : Option Python.Expr) :
    S.Gives S.Harmless (lowerReturn S.names value) := by
  refine .behind keepsPlace_currentFrame fun frame => ?_
  split
  · split
    · exact .behind (keepsPlace_warn _ _) fun _ => .pure (harmless_line rfl nofun)
    · exact .pure (harmless_line rfl nofun)
  · exact .map (keepsPlace_lowerOption S.names value) fun _ => harmless_line rfl nofun

theorem harmless_lowerRaise (exc cause : Option Python.Expr) :
    S.Gives S.Harmless (lowerRaise S.names exc cause) := by
  have hthrow (exc : Python.Expr) : S.Gives S.Harmless
      (do return [.throw_ (some (← lowerException S.names exc))] : Render Block) :=
    .map (keepsPlace_lowerException S.names exc) fun _ => harmless_line rfl nofun
  have hbare : S.Gives S.Harmless (Pure.pure [.throw_ none] : Render Block) :=
    .pure (harmless_line rfl nofun)
  cases exc with
  | none =>
    cases cause with
    | none => exact hbare
    | some _ => exact .behind (keepsPlace_note _ _) fun _ => hbare
  | some exc =>
    cases cause with
    | none => exact hthrow exc
    | some _ => exact .behind (keepsPlace_note _ _) fun _ => hthrow exc

mutual

theorem harmless_lowerDelete (target : Python.Expr) :
    S.Gives S.Harmless (lowerDelete S.names target) := by
  cases target with
  | subscript value index =>
    exact .behind (keepsPlace_note _ _) fun _ =>
      .behind (keepsPlace_lowerExpr S.names value) fun _ =>
      .map (keepsPlace_lowerList S.names index) fun _ => harmless_line rfl nofun
  | tuple items => exact harmless_lowerDeletes items
  | list items => exact harmless_lowerDeletes items
  | _ => exact .map (keepsPlace_lowerExpr S.names _) fun _ => harmless_setNull _

theorem harmless_lowerDeletes :
    ∀ targets : List Python.Expr, S.Gives S.Harmless (lowerDeletes S.names targets)
  | [] => .pure harmless_nil
  | target :: rest =>
    .bind (keepsPlace_lowerDelete S.names target) (harmless_lowerDelete target) fun _ hf =>
      .bind (keepsPlace_lowerDeletes S.names rest) (harmless_lowerDeletes rest) fun _ hr =>
        .pure (hf.append hr)

end

theorem harmless_lowerImportFrom (path : String) (entries : List Python.ImportName)
    (wildcard : Bool) : S.Gives S.Harmless (lowerImportFrom path entries wildcard) := by
  unfold lowerImportFrom
  split
  · exact .behind (keepsPlace_warn _ _) fun _ => .pure (harmless_line rfl nofun)
  · split
    · exact .behind (keepsPlace_addUsing _) fun _ => .pure harmless_nil
    · exact .behind (.forM (fun _ => keepsPlace_addUsing _) entries) fun _ => .pure harmless_nil

theorem harmless_lowerUnsupported (kind text : String) :
    S.Gives S.Harmless (lowerUnsupported kind text) := by
  refine .behind (keepsPlace_warn _ _) fun _ => .pure (harmless_comments ?_)
  unfold keptAsComment
  split
  · intro line hline
    exact ⟨_, List.mem_singleton.1 hline⟩
  · intro line hline
    rcases List.mem_cons.1 hline with rfl | hrest
    · exact ⟨_, rfl⟩
    · obtain ⟨kept, -, rfl⟩ := List.mem_map.1 hrest
      exact ⟨_, rfl⟩

/-- Simple statements become lines that assign truth values to variables of the source only. -/
theorem harmless_lowerKind {kind : Python.StmtKind} (hk : kind.isSimple = true)
    (hb : ∀ id ∈ kind.boundByForm, id ∈ S.reserved) {s after : State}
    (hs : s.scopes.receiver = S.self)
    {lines : Block} (hrun : lowerKind S.names kind s = .ok (lines, after)) : S.Harmless lines := by
  have hlift {x : Render Block} (hx : S.Gives S.Harmless x)
      (h : (liftM x : Lower Block) s = .ok (lines, after)) : S.Harmless lines := by
    have heq : x s = (lines, after) := Except.ok.inj h
    have hlines := hx s hs
    rwa [heq] at hlines
  have hpure {block : Block} (hx : S.Harmless block)
      (h : (Pure.pure block : Lower Block) s = .ok (lines, after)) : S.Harmless lines := by
    cases h
    exact hx
  cases kind with
  | expr value => exact hlift (harmless_lowerExprStmt value) hrun
  | assign targets value => exact hlift (harmless_lowerAssign value hb) hrun
  | annAssign target hint value => exact hlift (harmless_lowerAnnAssign hint value hb) hrun
  | augAssign target op value => exact hlift (harmless_lowerAugAssign target op value) hrun
  | returnStmt value => exact hlift (harmless_lowerReturn value) hrun
  | raiseStmt exc cause => exact hlift (harmless_lowerRaise exc cause) hrun
  | deleteStmt targets => exact hlift (harmless_lowerDeletes targets) hrun
  | assertStmt test msg =>
    refine hlift (.behind (keepsPlace_lowerExpr S.names test) fun _ => ?_) hrun
    exact .map (keepsPlace_lowerOption S.names msg) fun _ => harmless_line rfl nofun
  | importStmt entries =>
    exact hlift (.behind (.forM (fun _ => keepsPlace_addUsing _) entries) fun _ =>
      .pure harmless_nil) hrun
  | importFrom path entries wildcard =>
      exact hlift (harmless_lowerImportFrom path entries wildcard) hrun
  | globalStmt ids =>
    refine hlift (.behind (.forM (fun id => ?_) ids) fun _ => .pure harmless_nil) hrun
    exact .bind (keepsPlace_modifyFrame fun frame => frame.grows_exclude id) fun _ =>
      keepsPlace_modifyRoot fun frame => frame.grows_record id
  | nonlocalStmt ids =>
    refine hlift (.behind (.forM (fun id => ?_) ids) fun _ => .pure harmless_nil) hrun
    exact keepsPlace_modifyFrame fun frame => frame.grows_exclude id
  | passStmt =>
    have hline : S.Harmless [.empty] := harmless_line rfl nofun
    exact hpure hline hrun
  | comment text =>
    have hline : S.Harmless [Lowering.comment text] := harmless_line rfl nofun
    exact hpure hline hrun
  | unsupported kind text => exact hlift (harmless_lowerUnsupported kind text) hrun
  | _ => cases hk

end Body

end PythonToCSharp.Lowering
