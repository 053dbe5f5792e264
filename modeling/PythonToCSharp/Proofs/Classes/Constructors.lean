import PythonToCSharp.Proofs.Classes.Members
import PythonToCSharp.Proofs.Classes.Places

/-!
The names of constructors.

An initializer whose innermost definition around is a class is written as a constructor in that
class, and no other function is. It bears the name of the class as the source spells it. The head of
the class and its static constructor bear the name as C# takes it, which is another one if the name
is a reserved word.
-/

namespace PythonToCSharp.CSharp

/-- The name that a function bears as a constructor. -/
def Header.constructorName? : Header → Option String
  | .constructor className _ => some className
  | .function _ _ _ _ => none

/-- The name that a line declares a constructor by. -/
def Stmt.constructorName? : Stmt → Option String
  | .function declaration => declaration.header.constructorName?
  | _ => none

/-- A constructor of that name stands in the blocks of statements, or in those of a function there.
Types in them have their own. -/
inductive HoldsConstructor (name : String) : List Stmt → Prop where
  | here {block : List Stmt} {line : Stmt} (stands : line ∈ definitionsIn block)
      (bears : line.constructorName? = some name) : HoldsConstructor name block
  | inside {block : List Stmt} {declaration : Function}
      (stands : .function declaration ∈ definitionsIn block)
      (held : HoldsConstructor name declaration.body) : HoldsConstructor name block

/-- A constructor of that name stands in the block of the class. -/
def Class.HasConstructor (type : Class) (name : String) : Prop :=
  HoldsConstructor name type.initializer ∨ HoldsConstructor name type.members

end PythonToCSharp.CSharp

namespace PythonToCSharp.Python

/-- Whether a statement defines an initializer. -/
def StmtKind.isInitializer : StmtKind → Bool
  | .functionDef definition => definition.name == "__init__"
  | _ => false

/-- The class is the innermost definition around an initializer. -/
def ClassDef.HasInitializer (definition : ClassDef) : Prop :=
  ∃ s ∈ ownStatements definition.body, s.kind.isInitializer = true

theorem isDefinition_of_isInitializer {kind : StmtKind} (h : kind.isInitializer = true) :
    kind.isDefinition = true := by
  cases kind with
  | functionDef definition => rfl
  | _ => cases h

/-- The definitions whose innermost definition around is a class are the statements of its body and
those in their blocks. -/
theorem mem_direct_or_held {kind : StmtKind} (h : kind.isDefinition = true) (body : List Stmt) :
    kind ∈ directDefinitions body ∨ kind ∈ heldDefinitions body ↔
      ∃ s ∈ ownStatements body, s.kind = kind := by
  induction body with
  | nil =>
    constructor
    · rintro (hdirect | hheld)
      · cases hdirect
      · cases hheld
    · rintro ⟨s, hs, -⟩
      cases hs
  | cons s rest ih =>
    obtain ⟨first, span⟩ := s
    have hheld : kind ∈ heldDefinitions (⟨first, span⟩ :: rest) ↔
        (∃ block ∈ first.blocks, ∃ s ∈ ownStatements block, s.kind = kind) ∨
          kind ∈ heldDefinitions rest := by
      simp only [heldDefinitions, List.flatMap_cons, List.flatMap_append, List.map_append,
        List.filter_append, List.mem_append, List.mem_filter, List.mem_map, List.mem_flatMap, h,
        and_true]
      grind
    have hdirect : kind ∈ directDefinitions (⟨first, span⟩ :: rest) ↔ first = kind ∨
        kind ∈ directDefinitions rest := by
      simp only [directDefinitions, List.map_cons, List.mem_filter, List.mem_cons, h, and_true,
        eq_comm]
    rw [hheld, hdirect, or_or_or_comm, ih]
    simp only [mem_ownStatements_cons]
    grind

end PythonToCSharp.Python

namespace PythonToCSharp.Lowering

open CSharp (HoldsConstructor classDeclarations decoratorLines definitionsIn escapeIdentifier
  layoutAll staticConstructor)
open Python (classDefs directDefinitions heldDefinitions innerDefinitions)

variable {names : LibraryNames}

/-! ## Headers -/

/-- In a class, an initializer and nothing else becomes a constructor. -/
theorem constructorName?_functionHeader (home : Option String) (definition : Python.FunctionDef)
    (params : List CSharp.Parameter) :
    (functionHeader names home (roleOf home.isSome definition.decorators) definition
      params).constructorName? =
      if definition.name == "__init__" then home else none := by
  cases home with
  | none => simp [functionHeader, CSharp.Header.constructorName?]
  | some name =>
    have hrole : (roleOf true definition.decorators != .free) = true := by
      unfold roleOf
      split_ifs <;> simp_all
    cases hinit : definition.name == "__init__" <;>
      simp [functionHeader, hrole, hinit, CSharp.Header.constructorName?]

theorem Becomes.constructorName? {home : Option String} {kind : Python.StmtKind}
    {line : CSharp.Stmt}
    (h : Becomes names home kind line) :
    line.constructorName? = if kind.isInitializer then home else none := by
  cases h with
  | function header classless =>
    rw [CSharp.Stmt.constructorName?, header, constructorName?_functionHeader]
    rfl
  | type declared => rfl

/-! ## Blocks -/

/-- The constructors among definitions are the initializers among what they come from. -/
theorem bears_iff {home : Option String} {kinds : List Python.StmtKind} {lines : Block}
    (h : List.Forall₂ (Becomes names home) kinds lines) (name : String) :
    (∃ line ∈ lines, line.constructorName? = some name) ↔
      home = some name ∧ ∃ kind ∈ kinds, kind.isInitializer = true := by
  induction h with
  | nil => simp
  | @cons kind line kinds lines hfirst hrest ih =>
    have hone :
        line.constructorName? = some name ↔ home = some name ∧ kind.isInitializer = true := by
      rw [hfirst.constructorName?]
      cases kind.isInitializer <;> simp
    rw [List.exists_mem_cons_iff, List.exists_mem_cons_iff, ih, hone, and_or_left]

/-- Where no function holds a constructor, those in a block are the initializers among what its
definitions come from. -/
theorem holdsConstructor_iff {home : Option String} {kinds : List Python.StmtKind} {block : Block}
    (h : BecomeAll names home kinds (definitionsIn block))
    (hdeeper : ∀ function, .function function ∈ definitionsIn block →
      ∀ name, ¬ HoldsConstructor name function.body)
    (name : String) :
    HoldsConstructor name block ↔ home = some name ∧ ∃ kind ∈ kinds, kind.isInitializer = true := by
  rw [← bears_iff (becomeAll_iff.1 h)]
  constructor
  · intro hholds
    cases hholds with
    | here stands bears => exact ⟨_, stands, bears⟩
    | inside stands held => exact absurd held (hdeeper _ stands name)
  · rintro ⟨function, stands, bears⟩
    exact .here stands bears

/-- The definitions in the lines of a function stand in no class. -/
theorem becomeAll_insideFunction {definition : Python.FunctionDef} {s last : State} {lines : Block}
    (run : lowerBlock names definition.body (insideFunction names definition s) =
      .ok (lines, last)) :
    ∃ kinds, BecomeAll names none kinds (definitionsIn lines) := by
  let inner := insideFunction names definition s
  have hstands : Stands ⟨none, inner.scopes.receiver⟩ inner := by
    refine ⟨?_, fun _ hname => (nomatch hname), rfl⟩
    rw [(around_insideFunction names definition s).kind]
    rfl
  obtain ⟨_, _, emitted, run', -, hanswered, hholds⟩ :=
    leaves_lowerBlock names _ definition.body inner hstands
  obtain ⟨rfl, rfl⟩ := run_unique run run'
  have hstanding := hanswered.standing
  rw [← show definitionsIn lines = _ from hholds] at hstanding
  exact ⟨_, hstanding⟩

/-- No constructor stands in the body of a function. -/
theorem Arises.no_constructor {line : CSharp.Stmt} (h : Arises names line) :
    ∀ function, line = .function function → ∀ name, ¬ HoldsConstructor name function.body := by
  induction h with
  | @function definition s last lines run held ih =>
    rintro _ ⟨⟩ name hholds
    obtain ⟨kinds, hbecome⟩ := becomeAll_insideFunction run
    have hdeeper (function : CSharp.Function) (hmem : .function function ∈ definitionsIn lines) :=
      ih _ hmem function rfl
    cases ((holdsConstructor_iff hbecome hdeeper name).1 hholds).1
  | type run initializer members ihi ihm =>
    rintro _ ⟨⟩

/-! ## Classes -/

theorem escapeIdentifier_eq_self_iff (name : String) :
    escapeIdentifier name = name ↔ name ∉ CSharp.keywords := by
  have hmem : CSharp.keywords.contains name = true ↔ name ∈ CSharp.keywords := List.contains_iff_mem
  unfold escapeIdentifier
  split
  next hin =>
    have hlonger : "@" ++ name ≠ name := by
      intro heq
      have hlength := congrArg String.length heq
      rw [String.length_append] at hlength
      have hone : "@".length = 1 := rfl
      omega
    exact iff_of_false hlonger (not_not_intro (hmem.1 hin))
  next hout => exact iff_of_true rfl fun hin => hout (hmem.2 hin)

/-- What becomes of the name of a class: it stands in the head and in the static constructor as C#
takes it, and the constructors in the block bear it as the source spells it. There are constructors
if the class has an initializer. -/
structure NamedAfter (definition : Python.ClassDef) (type : CSharp.Class) : Prop where
  name : type.name = escapeIdentifier definition.name
  layout : type.layout = decoratorLines type.decorators ++
    [.line (CSharp.classHead type.isPublic type.name type.bases),
      .block (classDeclarations type.valueType type.statics type.fields type.flags ++
        staticConstructor type.name (layoutAll type.initializer) ++ layoutAll type.members)]
  constructors :
    ∀ name, type.HasConstructor name ↔ name = definition.name ∧ definition.HasInitializer

theorem exists_initializer_iff (definition : Python.ClassDef) :
    ((∃ kind ∈ innerDefinitions definition.site definition.body, kind.isInitializer = true) ∨
      ∃ kind ∈ directDefinitions definition.body, kind.isInitializer = true) ↔
        definition.HasInitializer := by
  have hmem (kind : Python.StmtKind) : kind ∈ innerDefinitions definition.site definition.body ↔
      kind ∈ heldDefinitions definition.body :=
    (Python.innerDefinitions_perm rfl definition.body).mem_iff
  have hown {kind : Python.StmtKind} (h : kind.isInitializer = true) :=
    Python.mem_direct_or_held (Python.isDefinition_of_isInitializer h) definition.body
  constructor
  · rintro (⟨kind, hkind, hinit⟩ | ⟨kind, hkind, hinit⟩)
    · obtain ⟨s, hs, rfl⟩ := (hown hinit).1 (.inr ((hmem kind).1 hkind))
      exact ⟨s, hs, hinit⟩
    · obtain ⟨s, hs, rfl⟩ := (hown hinit).1 (.inl hkind)
      exact ⟨s, hs, hinit⟩
  · rintro ⟨s, hs, hinit⟩
    obtain hdirect | hheld := (hown hinit).2 ⟨s, hs, rfl⟩
    · exact .inr ⟨s.kind, hdirect, hinit⟩
    · exact .inl ⟨s.kind, (hmem s.kind).2 hheld, hinit⟩

theorem namedAfter_of_declares {nested : Bool} {definition : Python.ClassDef} {type : CSharp.Class}
    (h : Declares names nested definition type) (harises : Arises names (.type type)) :
    NamedAfter definition type := by
  obtain ⟨hname, -, hmembers, hinitializer⟩ := h
  refine ⟨hname, CSharp.Class.layout_eq type, fun name => ?_⟩
  obtain ⟨hinner, hdirect⟩ : (∀ line ∈ definitionsIn type.initializer, Arises names line) ∧
      ∀ line ∈ definitionsIn type.members, Arises names line := by
    cases harises with
    | type run initializer members => exact ⟨initializer, members⟩
  have hdeeper {block : Block} (hblock : ∀ line ∈ definitionsIn block, Arises names line)
      (function : CSharp.Function)
      (hmem : .function function ∈ definitionsIn block) :=
    (hblock _ hmem).no_constructor function rfl
  rw [CSharp.Class.HasConstructor, holdsConstructor_iff hinitializer (hdeeper hinner),
    holdsConstructor_iff hmembers (hdeeper hdirect), ← and_or_left, exists_initializer_iff,
    Option.some.injEq, eq_comm]

/-- The constructors of a class bear its name unless that is a reserved word. -/
theorem NamedAfter.agree_iff {definition : Python.ClassDef} {type : CSharp.Class}
    (h : NamedAfter definition type) : (∀ name, type.HasConstructor name → name = type.name) ↔
      (definition.HasInitializer → definition.name ∉ CSharp.keywords) := by
  rw [← escapeIdentifier_eq_self_iff, ← h.name]
  constructor
  · intro hall hinit
    exact (hall definition.name ((h.constructors _).2 ⟨rfl, hinit⟩)).symm
  · intro hkept name hholds
    obtain ⟨rfl, hinit⟩ := (h.constructors name).1 hholds
    exact (hkept hinit).symm

/-! ## Modules -/

theorem agree_all_iff {entries : List (Bool × Python.ClassDef)} {types : List CSharp.Class}
    (h : List.Forall₂ (fun entry type => NamedAfter entry.2 type) entries types) :
    (∀ type ∈ types, ∀ name, type.HasConstructor name → name = type.name) ↔
      ∀ entry ∈ entries, entry.2.HasInitializer → entry.2.name ∉ CSharp.keywords := by
  induction h with
  | nil => simp
  | cons hfirst _ ih => rw [List.forall_mem_cons, List.forall_mem_cons, ih, hfirst.agree_iff]

/-- In the code for a module, no constructor stands outside of the classes. The constructors in the
block of a class bear the name of the class as the source spells it, and there are some if it has an
initializer. The head and the static constructor bear it as C# takes it. So all constructors bear
the name of their class if and only if no class with an initializer is named by a reserved word. -/
theorem constructors_bear_class_name_iff (options : Options) (source : Python.Module) :
    ∃ (file : CSharp.File) (diagnostics : List Diagnostic) (types : List CSharp.Class),
      lower options source = .ok ⟨file.text options.indentWidth, diagnostics⟩ ∧
      types.Perm file.classes ∧
      (∀ name, ¬ HoldsConstructor name file.body) ∧
      List.Forall₂ (fun entry type => NamedAfter entry.2 type) (classDefs false source.body) types ∧
      ((∀ type ∈ file.classes, ∀ name, type.HasConstructor name → name = type.name) ↔
        ∀ entry ∈ classDefs false source.body,
          entry.2.HasInitializer → entry.2.name ∉ CSharp.keywords) := by
  obtain ⟨body, after, emitted, hrun, hanswered, hbody, -, htypes⟩ :=
    lowerModule_leaves options.library source
  obtain ⟨types, hplaced, hperm⟩ := hanswered.classes hbody htypes
  have hnamed : List.Forall₂ (fun entry type => NamedAfter entry.2 type)
      (classDefs false source.body) types :=
    hplaced.imp fun _ _ h => namedAfter_of_declares h.1 h.2
  have hbecome := hanswered.standing
  have hlines := hanswered.arises_standing
  rw [← hbody] at hbecome hlines
  refine ⟨moduleFile options.library body after, after.diagnostics, types, ?_, hperm,
    ?_, hnamed, ?_⟩
  · rw [lower_run hrun, CSharp.File.printAll_layout]
  · intro name hholds
    have hdeeper (function : CSharp.Function) (hmem : .function function ∈ definitionsIn body) :=
      (hlines _ hmem).no_constructor function rfl
    cases ((holdsConstructor_iff hbecome hdeeper name).1 hholds).1
  · rw [← agree_all_iff hnamed]
    exact forall_congr' fun type => by rw [hperm.mem_iff]

/-- A class whose name is a reserved word, with an initializer. -/
def stringClass : Python.ClassDef :=
  ⟨"string", [],
    [⟨.functionDef ⟨"__init__", [⟨"self", .normal, none, none⟩], none,
      [⟨.passStmt, ⟨3, 9⟩⟩], [], false⟩,
    ⟨2, 5⟩⟩], []⟩

/-- The head of the class has an at sign before the name, and the constructor has none. -/
theorem stringClass_misnamed :
    (lower {} ⟨[⟨.classDef stringClass, ⟨1, 1⟩⟩]⟩).toOption =
      some ⟨"class @string\n\x7b\n    public string()\n    \x7b\n        ;\n    \x7d\n\x7d\n",
        []⟩ := by
  decide +kernel

end PythonToCSharp.Lowering
