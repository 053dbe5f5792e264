import PythonToCSharp.Proofs.Lowering.Exits

/-!
The return type of a function and the lines by which it returns.

The type is chosen from the body as a whole before any of its statements is lowered: a body that
yields makes an iterator, and otherwise a `return` with a value makes a function with a value. The
lines are chosen one by one, an iterator being known by the mark of its frame. The two agree on
iterators and on values, but a `return` without a value is written as it stands even where the type
asks for one.
-/

namespace PythonToCSharp.CSharp

/-- The forms of return types. -/
inductive ReturnForm where
  | nothing
  | task
  | value
  | taskOfValue
  | iterator
  | asyncIterator
  deriving DecidableEq, Repr

namespace ReturnForm

/-- The type of a form, from the type of values. -/
def type (valueType : TypeRef) : ReturnForm → TypeRef
  | .nothing => .named "void"
  | .task => .named "Task"
  | .value => valueType
  | .taskOfValue => .generic "Task" [valueType]
  | .iterator => .generic "IEnumerable" [valueType]
  | .asyncIterator => .generic "IAsyncEnumerable" [valueType]

/-- Whether the function is an iterator. -/
def isIterator : ReturnForm → Bool
  | .iterator | .asyncIterator => true
  | _ => false

/-- Whether the function returns a value. -/
def hasValue : ReturnForm → Bool
  | .value | .taskOfValue => true
  | _ => false

end ReturnForm

/-! ## Lines and exits -/

variable {lines : List Stmt}

theorem yieldReturn_mem_exitsOf :
    .yieldReturn ∈ exitsOf lines ↔ ∃ value, .yieldReturn value ∈ lines := by
  rw [mem_exitsOf]
  constructor
  · rintro ⟨line, hline, hexit⟩
    unfold Stmt.exit? at hexit
    split at hexit
    · exact ⟨_, hline⟩
    all_goals cases hexit
  · rintro ⟨value, hline⟩
    exact ⟨_, hline, rfl⟩

theorem returnValue_mem_exitsOf :
    .returnValue ∈ exitsOf lines ↔ ∃ value, .return_ (some value) ∈ lines := by
  rw [mem_exitsOf]
  constructor
  · rintro ⟨line, hline, hexit⟩
    unfold Stmt.exit? at hexit
    split at hexit
    · cases hexit
    · cases hexit
    · exact ⟨_, hline⟩
    all_goals cases hexit
  · rintro ⟨value, hline⟩
    exact ⟨_, hline, rfl⟩

theorem returnBare_mem_exitsOf : .returnBare ∈ exitsOf lines ↔ .return_ none ∈ lines := by
  rw [mem_exitsOf]
  constructor
  · rintro ⟨line, hline, hexit⟩
    unfold Stmt.exit? at hexit
    split at hexit
    · cases hexit
    · cases hexit
    · cases hexit
    · exact hline
    · cases hexit
  · intro hline
    exact ⟨_, hline, rfl⟩

end PythonToCSharp.CSharp

namespace PythonToCSharp.Python

open CSharp (Exit)

/-- Whether a statement is a `return`. -/
def StmtKind.isReturn : StmtKind → Bool
  | .returnStmt _ => true
  | _ => false

variable {body : List Stmt}

theorem mem_exitsIn {generator : Bool} {exit : Exit} :
    exit ∈ exitsIn generator body ↔ ∃ s ∈ ownStatements body, exit ∈ s.kind.exits generator :=
  List.mem_flatMap

theorem yields_of_isYield {value : Expr} (h : value.isYield = true) :
    (StmtKind.expr value).yields = true := by
  simp only [StmtKind.yields, StmtKind.exprs, List.any_cons, List.any_nil, Bool.or_false]
  rw [Expr.any, Expr.subexprs_eq, List.any_cons, h, Bool.true_or]

/-- A `yield` that is a statement makes its body one that yields. -/
theorem yieldsIn_of_mem_exitsIn {generator : Bool} (h : .yieldReturn ∈ exitsIn generator body) :
    yieldsIn body = true := by
  obtain ⟨s, hs, hexit⟩ := mem_exitsIn.1 h
  refine List.any_eq_true.2 ⟨s, hs, ?_⟩
  cases hkind : s.kind with
  | expr value =>
    rw [hkind] at hexit
    cases value with
    | yield value => exact yields_of_isYield rfl
    | yieldFrom source => exact yields_of_isYield rfl
    | _ => cases hexit
  | returnStmt value => cases generator <;> cases value <;> simp [hkind, StmtKind.exits] at hexit
  | _ => simp [hkind, StmtKind.exits] at hexit

/-- An iterator asks for no return. -/
theorem mem_exitsIn_generator {exit : Exit} (h : exit ∈ exitsIn true body) :
    exit = .yieldReturn ∨ exit = .yieldBreak := by
  obtain ⟨s, -, hexit⟩ := mem_exitsIn.1 h
  cases hkind : s.kind with
  | expr value =>
    rw [hkind] at hexit
    cases value with
    | yield value => exact .inl (List.mem_singleton.1 hexit)
    | yieldFrom source => exact .inl (List.mem_singleton.1 hexit)
    | _ => cases hexit
  | returnStmt value =>
    rw [hkind] at hexit
    exact .inr (List.mem_singleton.1 hexit)
  | _ => simp [hkind, StmtKind.exits] at hexit

theorem count_yieldBreak_exitsIn :
    (exitsIn true body).count .yieldBreak = (ownStatements body).countP fun s =>
      s.kind.isReturn := by
  have hkind (kind : StmtKind) :
      (kind.exits true).count .yieldBreak = if kind.isReturn then 1 else 0 := by
    cases kind with
    | expr value => cases value <;> rfl
    | _ => rfl
  unfold exitsIn
  induction ownStatements body with
  | nil => rfl
  | cons s rest ih => rw [List.flatMap_cons, List.count_append, ih, hkind, List.countP_cons,
      Nat.add_comm]

theorem returnValue_mem_exitsIn :
    .returnValue ∈ exitsIn false body ↔ returnsValueIn body = true := by
  rw [mem_exitsIn, returnsValueIn, List.any_eq_true]
  refine exists_congr fun s => and_congr_right fun _ => ?_
  cases s.kind with
  | returnStmt value => cases value <;> simp [StmtKind.exits, StmtKind.returnsValue]
  | expr value => cases value <;> simp [StmtKind.exits, StmtKind.returnsValue]
  | _ => simp [StmtKind.exits, StmtKind.returnsValue]

theorem returnsValueIn_iff :
    returnsValueIn body = true ↔ ∃ s ∈ ownStatements body, ∃ value,
      s.kind = .returnStmt (some value) := by
  rw [returnsValueIn, List.any_eq_true]
  refine exists_congr fun s => and_congr_right fun _ => ?_
  cases s.kind with
  | returnStmt value => cases value <;> simp [StmtKind.returnsValue]
  | _ => simp [StmtKind.returnsValue]

theorem returnBare_mem_exitsIn :
    .returnBare ∈ exitsIn false body ↔ ∃ s ∈ ownStatements body, s.kind = .returnStmt none := by
  rw [mem_exitsIn]
  refine exists_congr fun s => and_congr_right fun _ => ?_
  cases s.kind with
  | returnStmt value => cases value <;> simp [StmtKind.exits]
  | expr value => cases value <;> simp [StmtKind.exits]
  | _ => simp [StmtKind.exits]

end PythonToCSharp.Python

namespace PythonToCSharp.Lowering

open CSharp (ReturnForm exitsOf ownLines)
open Python (exitsIn ownStatements returnsValueIn yieldsIn)

/-! ## Headers -/

/-- The form of a return type, from what the body does. -/
def returnForm (isAsync yields returnsValue : Bool) : ReturnForm :=
  match isAsync, yields, returnsValue with
  | false, true, _ => .iterator
  | false, false, true => .value
  | false, false, false => .nothing
  | true, true, _ => .asyncIterator
  | true, false, true => .taskOfValue
  | true, false, false => .task

theorem returnType_eq (names : LibraryNames) (isAsync yields returnsValue : Bool) :
    returnType names isAsync yields returnsValue =
      (returnForm isAsync yields returnsValue).type (valueType names) := by
  cases isAsync <;> cases yields <;> cases returnsValue <;> rfl

theorem isIterator_returnForm (isAsync yields returnsValue : Bool) :
    (returnForm isAsync yields returnsValue).isIterator = yields := by
  cases isAsync <;> cases yields <;> cases returnsValue <;> rfl

theorem hasValue_returnForm (isAsync yields returnsValue : Bool) :
    (returnForm isAsync yields returnsValue).hasValue = (!yields && returnsValue) := by
  cases isAsync <;> cases yields <;> cases returnsValue <;> rfl

/-- The function is the initializer of the class in whose body it stands. -/
def IsConstructor (definition : Python.FunctionDef) (s : State) : Prop :=
  s.scopes.current.kind = .class_ ∧ s.classNames ≠ [] ∧ definition.name = "__init__"

/-- The header is that of a constructor. -/
def ConstructorHeader (header : CSharp.Header) : Prop :=
  ∃ className params, header = .constructor className params

/-- The header has a return type of the form. -/
def HasForm (names : LibraryNames) (header : CSharp.Header) (form : ReturnForm) : Prop :=
  ∃ modifiers name params, header = .function modifiers (form.type (valueType names)) name params

/-- A header has one form at most, unless the type of values is itself called `void` or `Task`. -/
theorem HasForm.unique {names : LibraryNames} {header : CSharp.Header} {form other : ReturnForm}
    (h : HasForm names header form) (h' : HasForm names header other) :
    other = form ∨ names.valueType = "void" ∨ names.valueType = "Task" := by
  obtain ⟨_, _, _, rfl⟩ := h
  obtain ⟨_, _, _, heq⟩ := h'
  have htype : form.type (valueType names) = other.type (valueType names) :=
    (CSharp.Header.function.inj heq).2.1
  cases form <;> cases other <;> simp_all [ReturnForm.type, valueType]

/-- The header is that of a constructor where one is due. Any other header has a return type of a
form with the property. -/
def HeaderFits (names : LibraryNames) (definition : Python.FunctionDef) (s : State)
    (header : CSharp.Header) (P : ReturnForm → Prop) : Prop :=
  IsConstructor definition s ∧ ConstructorHeader header ∨
    ¬IsConstructor definition s ∧ ∃ form, HasForm names header form ∧
      (∀ other, HasForm names header other →
        other = form ∨ names.valueType = "void" ∨ names.valueType = "Task") ∧ P form

theorem roleOf_ne_free (inClass : Bool) (decorators : List Python.Expr) :
    (roleOf inClass decorators != .free) = inClass := by
  cases inClass with
  | false => rfl
  | true =>
    unfold roleOf
    split
    · contradiction
    · split
      · rfl
      · split <;> rfl

/-- Where no constructor is due, the form is the one that the body as a whole asks for. -/
theorem headerFits_functionHeader (names : LibraryNames) {definition : Python.FunctionDef}
    (s : State) (params : List CSharp.Parameter) {P : ReturnForm → Prop}
    (h : P (returnForm definition.isAsync (yieldsIn definition.body)
      (returnsValueIn definition.body))) :
    HeaderFits names definition s (functionHeader names s.classNames.head?
      (roleOf (s.scopes.current.kind == .class_) definition.decorators) definition params) P := by
  have hplain (modifiers : CSharp.Modifiers) : HasForm names
      (.function modifiers (returnType names definition.isAsync (yieldsIn definition.body)
        (returnsValueIn definition.body)) (CSharp.escapeIdentifier definition.name) params)
      (returnForm definition.isAsync (yieldsIn definition.body) (returnsValueIn definition.body)) :=
    ⟨_, _, _, by rw [returnType_eq]⟩
  unfold functionHeader
  cases hnames : s.classNames with
  | nil => exact .inr ⟨fun hc => hc.2.1 hnames, _, hplain _, fun _ => (hplain _).unique, h⟩
  | cons owner rest =>
    by_cases hplace : s.scopes.current.kind = .class_ ∧ definition.name = "__init__"
    · refine .inl
        ⟨⟨hplace.1, by rw [hnames]; exact List.cons_ne_nil _ _, hplace.2⟩, owner, params, ?_⟩
      simp only [List.head?_cons, roleOf_ne_free, hplace.1, hplace.2]
      rfl
    · have hcond : (s.scopes.current.kind == .class_ && definition.name == "__init__") = false := by
        simpa using hplace
      simp only [List.head?_cons, roleOf_ne_free, hcond]
      exact .inr ⟨fun hc => hplace ⟨hc.1, hc.2.2⟩, _, hplain _, fun _ => (hplain _).unique, h⟩

/-! ## Functions -/

theorem isGenerator_openFunction (definition : Python.FunctionDef) (receiver : Option String) :
    (openFunction definition receiver { kind := .function }).isGenerator =
      yieldsIn definition.body :=
  congrArg (·.2.2.1) (shape_openFunction definition receiver)

/-- The exits in the lines of a function are those that its statements ask for, and its header fits
the form that its body asks for. -/
theorem lowerFunctionDef_exits (names : LibraryNames) (definition : Python.FunctionDef)
    (span : Python.Span) (s : State) : ∃ function after,
      lowerStmt names ⟨.functionDef definition, span⟩ s = .ok ([.function function], after) ∧
      (exitsOf (ownLines function.body)).Perm (exitsIn (yieldsIn definition.body) definition.body) ∧
      ∀ {P : ReturnForm → Prop},
        P (returnForm definition.isAsync (yieldsIn definition.body)
          (returnsValueIn definition.body)) → HeaderFits names definition s function.header P := by
  obtain ⟨name, params, returns, body, decorators, isAsync⟩ := definition
  let definition : Python.FunctionDef := ⟨name, params, returns, body, decorators, isAsync⟩
  obtain ⟨receiver, inner, function, last, after, lowered, hopen, hbody, -, hheader, hrun⟩ :=
    lowerFunction_run names definition (succeeds_lowerBlock names body) { s with span := span }
  have hmark : inner.scopes.current.isGenerator = yieldsIn body := by
    rw [hopen]
    exact isGenerator_openFunction definition receiver
  obtain ⟨lines, _, hlines, -, hexits⟩ := exits_lowerBlock names (yieldsIn body) body inner hmark
  rw [hbody] at hlines
  cases hlines
  refine ⟨function, { after with span := s.span }, ?_, hexits, ?_⟩
  · rw [lowerStmt, lowerKind]
    exact bind_run (f := fun a => do Lowering.moveTo s.span; return a) hrun
  · intro P h
    rw [hheader]
    exact headerFits_functionHeader names { s with span := span } lowered h

/-- In an iterator no line returns, with or without a value. -/
theorem return_notMem_of_generator {lines : List CSharp.Stmt} {body : List Python.Stmt}
    (hexits : (exitsOf lines).Perm (exitsIn true body)) (value : Option CSharp.Expr) :
    .return_ value ∉ lines := by
  intro hline
  cases value with
  | none =>
    have hmem : .returnBare ∈ exitsOf lines := CSharp.returnBare_mem_exitsOf.2 hline
    simpa using Python.mem_exitsIn_generator (hexits.mem_iff.1 hmem)
  | some value =>
    have hmem : .returnValue ∈ exitsOf lines := CSharp.returnValue_mem_exitsOf.2 ⟨value, hline⟩
    simpa using Python.mem_exitsIn_generator (hexits.mem_iff.1 hmem)

/-- The lines of a function fit its header, wherever it stands and unless it is a constructor. Only
an iterator gives elements one by one; in an iterator every `return` is written as `yield break;`
and no line returns; and a value is returned somewhere exactly if the return type is the type of
values or a task of it. -/
theorem exits_fit_header (names : LibraryNames) (definition : Python.FunctionDef)
    (span : Python.Span) (s : State) :
    ∃ function after, lowerStmt names ⟨.functionDef definition, span⟩ s =
      .ok ([.function function], after) ∧ HeaderFits names definition s function.header fun form =>
        ((∃ value, .yieldReturn value ∈ ownLines function.body) → form.isIterator = true) ∧
        (form.isIterator = true →
          (∀ value, .return_ value ∉ ownLines function.body) ∧
          (exitsOf (ownLines function.body)).count .yieldBreak =
            (ownStatements definition.body).countP fun inner => inner.kind.isReturn) ∧
        ((∃ value, .return_ (some value) ∈ ownLines function.body) ↔ form.hasValue = true) := by
  obtain ⟨function, after, hrun, hexits, hheader⟩ := lowerFunctionDef_exits names definition span s
  refine ⟨function, after, hrun, hheader ?_⟩
  rw [isIterator_returnForm, hasValue_returnForm]
  refine ⟨?_, ?_, ?_⟩
  · intro hyield
    have hmem := CSharp.yieldReturn_mem_exitsOf.2 hyield
    exact Python.yieldsIn_of_mem_exitsIn (hexits.mem_iff.1 hmem)
  · intro hyields
    rw [hyields] at hexits
    exact ⟨return_notMem_of_generator hexits,
      (hexits.count_eq _).trans Python.count_yieldBreak_exitsIn⟩
  · cases hyields : yieldsIn definition.body with
    | true =>
      rw [hyields] at hexits
      simp [return_notMem_of_generator hexits]
    | false =>
      rw [hyields] at hexits
      rw [← CSharp.returnValue_mem_exitsOf, hexits.mem_iff]
      exact Python.returnValue_mem_exitsIn

/-- A line returns without a value where the return type asks for one exactly if the body of the
function, which yields nothing, returns both with a value and without. In an iterator there is no
such line, so that it otherwise stands under `void` or `Task` or in a constructor. -/
theorem bare_return_misfits_iff (names : LibraryNames) (definition : Python.FunctionDef)
    (span : Python.Span) (s : State) : ∃ function after,
      lowerStmt names ⟨.functionDef definition, span⟩ s = .ok ([.function function], after) ∧
      HeaderFits names definition s function.header fun form =>
        (.return_ none ∈ ownLines function.body → form.isIterator = false) ∧
        (.return_ none ∈ ownLines function.body ∧ form.hasValue = true ↔
          yieldsIn definition.body = false ∧
          (∃ inner ∈ ownStatements definition.body, inner.kind = .returnStmt none) ∧
          ∃ inner ∈ ownStatements definition.body, ∃ value,
            inner.kind = .returnStmt (some value)) := by
  obtain ⟨function, after, hrun, hexits, hheader⟩ := lowerFunctionDef_exits names definition span s
  refine ⟨function, after, hrun, hheader ?_⟩
  rw [isIterator_returnForm, hasValue_returnForm]
  cases hyields : yieldsIn definition.body with
  | true =>
    rw [hyields] at hexits
    simp [return_notMem_of_generator hexits]
  | false =>
    rw [hyields] at hexits
    rw [← CSharp.returnBare_mem_exitsOf, hexits.mem_iff, Python.returnBare_mem_exitsIn,
      ← Python.returnsValueIn_iff]
    simp

/-- A search that gives up without a value. -/
def findDefinition : Python.FunctionDef :=
  ⟨"find", [⟨"x", .normal, none, none⟩], none,
    [⟨.ifChain [⟨.name "x", [⟨.returnStmt (some (.int "1")), ⟨3, 9⟩⟩]⟩] none, ⟨2, 5⟩⟩,
      ⟨.returnStmt none, ⟨4, 5⟩⟩],
    [], false⟩

/-- The return type is the type of values, and yet the last line returns none. -/
theorem findDefinition_returns_nothing :
    (∃ function after, lowerStmt {} ⟨.functionDef findDefinition, ⟨1, 1⟩⟩ {} =
      .ok ([.function function], after) ∧
      HasForm {} function.header .value ∧ .return_ none ∈ ownLines function.body) ∧
    (lower {} ⟨[⟨.functionDef findDefinition, ⟨1, 1⟩⟩]⟩).toOption =
      some ⟨"PyVariable find(PyVariable x)\n\x7b\n    if (x)\n    \x7b\n        return 1;\n    \x7d\n    return;\n\x7d\n",
        []⟩ := by
  refine ⟨⟨_, _, rfl, ⟨_, _, _, rfl⟩, ?_⟩, by decide +kernel⟩
  exact List.mem_append_right _ List.mem_cons_self

end PythonToCSharp.Lowering
