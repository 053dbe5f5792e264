import PythonToCSharp.Proofs.Classes.Outline
import PythonToCSharp.Proofs.Lowering.Exits

/-!
Where definitions stand in C# code, and what a definition of the source becomes.

`definitionsIn` are the functions and types that stand in the blocks of some statements, `classesIn`
are all classes in them, at any depth. `Becomes` and `Declares` say what a function or a class of
the source is turned into, and where the definitions in it stand. `Kept` says that no class is lost
or doubled on the way.
-/

namespace PythonToCSharp.CSharp

/-- Whether a statement declares a function or a type. -/
def Stmt.isDefinition : Stmt → Bool
  | .function _ => true
  | .type _ => true
  | _ => false

/-- The choice of the definitions. -/
def Pick.definitions : Pick Stmt where
  choose s := if s.isDefinition then some s else none
  passes s h := by
    cases s with
    | function | type => cases h
    | _ => rfl

/-- The definitions among lines. -/
abbrev definitionsOf (lines : List Stmt) : List Stmt :=
  Pick.definitions.among lines

/-- The definitions that stand in a body's own blocks. -/
abbrev definitionsIn (block : List Stmt) : List Stmt :=
  Pick.definitions.inside block

theorem definitionsIn_append (first rest : List Stmt) :
    definitionsIn (first ++ rest) = definitionsIn first ++ definitionsIn rest :=
  Pick.definitions.inside_append first rest

/-! ## Classes at any depth -/

mutual

/-- The classes in a statement, at any depth. -/
def Stmt.classes : Stmt → List Class
  | .ifElse branches otherwise => classesBranches branches ++ classesOptional otherwise
  | .whileLoop _ body => classesIn body
  | .forEach _ _ _ body => classesIn body
  | .tryCatch body catches cleanup => classesIn body ++
      (classesCatches catches ++ classesOptional cleanup)
  | .using_ _ _ body => classesIn body
  | .switch _ sections => classesSections sections
  | .function ⟨_, _, _, _, _, body⟩ => classesIn body
  | .type declaration => declaration.classes
  | _ => []

/-- A class and the classes in it, at any depth. -/
def Class.classes : Class → List Class
  | ⟨decorators, isPublic, name, bases, valueType, statics, fields, flags, initializer, members⟩ =>
    ⟨decorators, isPublic, name, bases, valueType, statics, fields, flags, initializer, members⟩ ::
      (classesIn initializer ++ classesIn members)

/-- The classes in statements, at any depth. -/
def classesIn : List Stmt → List Class
  | [] => []
  | s :: rest => s.classes ++ classesIn rest

/-- The classes in a block that may be missing. -/
def classesOptional : Option (List Stmt) → List Class
  | none => []
  | some body => classesIn body

/-- The classes in the branches of a conditional. -/
def classesBranches : List Branch → List Class
  | [] => []
  | ⟨_, body⟩ :: rest => classesIn body ++ classesBranches rest

/-- The classes in catch clauses. -/
def classesCatches : List Catch → List Class
  | [] => []
  | ⟨_, body⟩ :: rest => classesIn body ++ classesCatches rest

/-- The classes in the sections of a switch. -/
def classesSections : List Section → List Class
  | [] => []
  | ⟨_, body⟩ :: rest => classesIn body ++ classesSections rest

end

/-- All classes of a file. -/
def File.classes (file : File) : List Class :=
  classesIn file.body ++ file.types.flatMap Class.classes

theorem Stmt.classes_function (declaration : Function) :
    (Stmt.function declaration).classes = classesIn declaration.body := by
  obtain ⟨decorators, header, valueType, vars, flags, body⟩ := declaration
  rw [Stmt.classes]

theorem Stmt.classes_type (declaration : Class) :
    (Stmt.type declaration).classes = declaration.classes := by
  rw [Stmt.classes]

theorem Class.classes_eq (declaration : Class) :
    declaration.classes = declaration ::
      (classesIn declaration.initializer ++ classesIn declaration.members) := by
  obtain ⟨decorators, isPublic, name, bases, valueType, statics, fields, flags, initializer,
    members⟩ := declaration
  rw [Class.classes]

theorem Class.layout_eq (declaration : Class) :
    declaration.layout = decoratorLines declaration.decorators ++
    [.line (classHead declaration.isPublic declaration.name declaration.bases),
      .block (classDeclarations declaration.valueType declaration.statics declaration.fields
        declaration.flags ++
        staticConstructor declaration.name (layoutAll declaration.initializer) ++
          layoutAll declaration.members)] := by
  obtain ⟨decorators, isPublic, name, bases, valueType, statics, fields, flags, initializer,
    members⟩ := declaration
  rw [Class.layout]

mutual

/-- Every class in a statement is in one of the definitions in its blocks. -/
theorem Stmt.classes_eq : ∀ s : Stmt, s.classes = (definitionsOf s.own).flatMap Stmt.classes
  | .ifElse branches otherwise => by
    simp only [Pick.among_own_ifElse, List.flatMap_append, Stmt.classes,
      classesBranches_eq branches, classesOptional_eq otherwise]
  | .whileLoop _ body => by simp only [Pick.among_own_whileLoop, Stmt.classes, classesIn_eq body]
  | .forEach _ _ _ body => by simp only [Pick.among_own_forEach, Stmt.classes, classesIn_eq body]
  | .tryCatch body catches cleanup => by
    simp only [Pick.among_own_tryCatch, List.flatMap_append, List.flatMap_append, Stmt.classes,
      classesIn_eq body, classesCatches_eq catches, classesOptional_eq cleanup]
  | .using_ _ _ body => by simp only [Pick.among_own_using, Stmt.classes, classesIn_eq body]
  | .switch _ sections => by simp only [Pick.among_own_switch, Stmt.classes,
      classesSections_eq sections]
  | .function declaration => (List.flatMap_singleton Stmt.classes (Stmt.function declaration)).symm
  | .type declaration => (List.flatMap_singleton Stmt.classes (Stmt.type declaration)).symm
  | .expr _ | .empty | .assign _ _ | .augment _ _ _ | .flag _ _ | .comment _ | .yieldReturn _
  | .yieldBreak | .return_ _ | .throw_ _ | .break_ | .continue_ => rfl

theorem classesIn_eq :
    ∀ block : List Stmt, classesIn block = (definitionsIn block).flatMap Stmt.classes
  | [] => rfl
  | s :: rest => by
    simp only [classesIn, Pick.inside_cons, List.flatMap_append, Stmt.classes_eq s,
      classesIn_eq rest]

theorem classesOptional_eq : ∀ body : Option (List Stmt),
    classesOptional body = (definitionsOf (ownOptional body)).flatMap Stmt.classes
  | none => rfl
  | some body => classesIn_eq body

theorem classesBranches_eq : ∀ branches : List Branch,
    classesBranches branches = (definitionsOf (ownBranches branches)).flatMap Stmt.classes
  | [] => rfl
  | ⟨_, body⟩ :: rest => by
    simp only [classesBranches, Pick.among_ownBranches_cons, List.flatMap_append, classesIn_eq body,
      classesBranches_eq rest]

theorem classesCatches_eq : ∀ catches : List Catch,
    classesCatches catches = (definitionsOf (ownCatches catches)).flatMap Stmt.classes
  | [] => rfl
  | ⟨_, body⟩ :: rest => by
    simp only [classesCatches, Pick.among_ownCatches_cons, List.flatMap_append, classesIn_eq body,
      classesCatches_eq rest]

theorem classesSections_eq : ∀ sections : List Section,
    classesSections sections = (definitionsOf (ownSections sections)).flatMap Stmt.classes
  | [] => rfl
  | ⟨_, body⟩ :: rest => by
    simp only [classesSections, Pick.among_ownSections_cons, List.flatMap_append, classesIn_eq body,
      classesSections_eq rest]

end

end PythonToCSharp.CSharp

namespace PythonToCSharp.Python

/-- Whether a statement defines a function or a class. -/
def StmtKind.isDefinition : StmtKind → Bool
  | .functionDef _ => true
  | .classDef _ => true
  | _ => false

/-- The definitions among the statements of a body. -/
def directDefinitions (body : List Stmt) : List StmtKind :=
  (body.map Stmt.kind).filter StmtKind.isDefinition

/-- The definitions that stand in place in the blocks of the other statements of a body. -/
def innerDefinitions (site : Site) (body : List Stmt) : List StmtKind :=
  ((body.map Stmt.kind).filter fun kind => !kind.isDefinition).flatMap fun kind =>
    (kind.outline site).filterMap Trace.standing?

end PythonToCSharp.Python

namespace PythonToCSharp.Lowering

open CSharp (classesIn definitionsIn escapeIdentifier)
open Python (Mark directDefinitions innerDefinitions)

mutual

/-- What a definition becomes that stands in place; `home` is the class in whose body it does. -/
inductive Becomes (names : LibraryNames) :
    Option String → Python.StmtKind → CSharp.Stmt → Prop where
  | function {home : Option String} {definition : Python.FunctionDef} {function : CSharp.Function}
      {params : List CSharp.Parameter}
      (header : function.header =
        functionHeader names home (roleOf home.isSome definition.decorators) definition params)
      (classless : classesIn function.body = []) :
        Becomes names home (.functionDef definition) (.function function)
  | type {home : String} {definition : Python.ClassDef} {type : CSharp.Class}
      (declared : Declares names true definition type) :
        Becomes names (some home) (.classDef definition) (.type type)

/-- What a class becomes. The definitions of its body are its members, and those inside other
statements of the body stay inside these, in the static constructor. -/
inductive Declares (names : LibraryNames) : Bool → Python.ClassDef → CSharp.Class → Prop where
  | mk {nested : Bool} {definition : Python.ClassDef} {type : CSharp.Class}
      (name : type.name = escapeIdentifier definition.name) (isPublic : type.isPublic = nested)
      (members : BecomeAll names (some definition.name) (directDefinitions definition.body)
        (definitionsIn type.members))
      (initializer : BecomeAll names (some definition.name)
        (innerDefinitions definition.site definition.body)
        (definitionsIn type.initializer)) : Declares names nested definition type

/-- What definitions become, one by one. -/
inductive BecomeAll (names : LibraryNames) :
    Option String → List Python.StmtKind → List CSharp.Stmt → Prop where
  | nil {home : Option String} : BecomeAll names home [] []
  | cons {home : Option String} {kind : Python.StmtKind} {line : CSharp.Stmt}
      {kinds : List Python.StmtKind}
      {lines : List CSharp.Stmt} (first : Becomes names home kind line)
        (rest : BecomeAll names home kinds lines) :
      BecomeAll names home (kind :: kinds) (line :: lines)

end

theorem becomeAll_iff {names : LibraryNames} {home : Option String} {kinds : List Python.StmtKind}
    {lines : List CSharp.Stmt} :
    BecomeAll names home kinds lines ↔ List.Forall₂ (Becomes names home) kinds lines := by
  constructor
  · intro h
    induction kinds generalizing lines with
    | nil =>
      cases h
      exact .nil
    | cons kind kinds ih =>
      cases h with
      | cons first rest => exact .cons first (ih rest)
  · intro h
    induction h with
    | nil => exact .nil
    | cons first _ ih => exact .cons first ih

/-- The line is what a definition of the source becomes in some state, and so are the definitions in
its blocks. -/
inductive Arises (names : LibraryNames) : CSharp.Stmt → Prop where
  | function {definition : Python.FunctionDef} {s last : State} {lines : Block}
      (run : lowerBlock names definition.body (insideFunction names definition s) =
        .ok (lines, last))
      (held : ∀ line ∈ definitionsIn lines, Arises names line) :
      Arises names (.function (loweredFunction names definition s lines last))
  | type {definition : Python.ClassDef} {s last : State} {lowered : ClassBody}
      (run : lowerMembers names definition.body (insideClass names definition s) =
        .ok (lowered, last))
      (initializer : ∀ line ∈ definitionsIn lowered.initializer, Arises names line)
      (members : ∀ line ∈ definitionsIn lowered.members, Arises names line) :
      Arises names (.type (loweredClass names definition s lowered last))

/-! ## What is left, in C# -/

/-- What the lowering leaves, as C#. -/
abbrev Emission := Trace CSharp.Stmt CSharp.Class

/-- What is left answers what the source asks for. -/
inductive Answers (names : LibraryNames) (home : Option String) : Mark → Emission → Prop where
  | directive (text : String) : Answers names home (.directive text) (.directive text)
  | field (attr : String) : Answers names home (.field attr) (.field attr)
  | standing {kind : Python.StmtKind} {line : CSharp.Stmt} (becomes : Becomes names home kind line)
      (arises : Arises names line) : Answers names home (.standing kind) (.standing line)
  | finished {behind : Bool} {definition : Python.ClassDef} {type : CSharp.Class}
      (declared : Declares names (!behind) definition type) (arises : Arises names (.type type)) :
    Answers names home (.finished behind definition) (.finished behind type)

/-- Each finished class is found once, in place or behind the top level. -/
def Kept (emitted : List Emission) : Prop :=
  (emitted.filterMap Trace.finished?).Perm
    ((emitted.filterMap Trace.behind?).flatMap CSharp.Class.classes ++
      (emitted.filterMap Trace.standing?).flatMap CSharp.Stmt.classes)

/-- What is emitted answers marks one by one, and no class is lost or doubled. -/
structure Answered (names : LibraryNames) (home : Option String) (marks : List Mark)
    (emitted : List Emission) : Prop where
  each : List.Forall₂ (Answers names home) marks emitted
  kept : Kept emitted

variable {names : LibraryNames} {home other : Option String} {marks first rest : List Mark}
variable {emitted emitted' : List Emission}

theorem Kept.append (h : Kept emitted) (h' : Kept emitted') : Kept (emitted ++ emitted') := by
  unfold Kept at h h' ⊢
  simp only [List.filterMap_append, List.flatMap_append]
  refine (h.append h').trans ?_
  -- the classes behind the top level come together, and those in place
  simp only [List.append_assoc]
  refine .append_left _ ?_
  rw [← List.append_assoc, ← List.append_assoc]
  exact .append_right _ List.perm_append_comm

namespace Answered

theorem nil : Answered names home [] [] :=
  ⟨.nil, .refl _⟩

theorem append (h : Answered names home first emitted) (h' : Answered names home rest emitted') :
    Answered names home (first ++ rest) (emitted ++ emitted') :=
  ⟨List.rel_append h.each h'.each, h.kept.append h'.kept⟩

theorem fields (attrs : List String) :
    Answered names home (attrs.map .field) (attrs.map .field) := by
  induction attrs with
  | nil => exact nil
  | cons attr attrs ih =>
    have hfirst : Answered names home [.field attr] [.field attr] :=
      ⟨.cons (.field attr) .nil, .refl _⟩
    exact hfirst.append ih

theorem directives (texts : List String) :
    Answered names home (texts.map .directive) (texts.map .directive) := by
  induction texts with
  | nil => exact nil
  | cons text texts ih =>
    have hfirst : Answered names home [.directive text] [.directive text] :=
      ⟨.cons (.directive text) .nil, .refl _⟩
    exact hfirst.append ih

/-- What leaves a definition does not depend on where it arises. -/
theorem leaving (h : Answered names home marks emitted) (ofClass : Bool) :
    List.Forall₂ (Answers names other) (marks.filter (Trace.leaves ofClass))
      (emitted.filter (Trace.leaves ofClass)) := by
  have heach := h.each
  clear h
  induction heach with
  | nil => exact .nil
  | cons hfirst _ ih =>
    cases hfirst with
    | directive text => exact .cons (.directive text) ih
    | field attr =>
      cases ofClass with
      | true => exact ih
      | false => exact .cons (.field attr) ih
    | standing becomes arises => exact ih
    | finished declared arises => exact .cons (.finished declared arises) ih

/-- What is picked of the marks and of what answers them stays related. -/
theorem pick {γ δ : Type} {P : γ → δ → Prop} {f : Mark → Option γ} {g : Emission → Option δ}
    (h : Answered names home marks emitted)
    (hone : ∀ mark one, Answers names home mark one → Option.Rel P (f mark) (g one)) :
    List.Forall₂ P (marks.filterMap f) (emitted.filterMap g) :=
  List.rel_filterMap (fun mark one h => hone mark one h) h.each

/-- The definitions in place are what those of the source become. -/
theorem standing (h : Answered names home marks emitted) :
    BecomeAll names home (marks.filterMap Trace.standing?) (emitted.filterMap Trace.standing?) := by
  refine becomeAll_iff.2 (h.pick fun mark one hone => ?_)
  cases hone with
  | standing becomes => exact .some becomes
  | _ => exact .none

theorem arises_standing (h : Answered names home marks emitted) :
    ∀ line ∈ emitted.filterMap Trace.standing?, Arises names line := by
  have hall := h.each
  clear h
  induction hall with
  | nil => exact List.forall_mem_nil _
  | cons hfirst _ ih =>
    cases hfirst with
    | standing becomes arises => exact List.forall_mem_cons.2 ⟨arises, ih⟩
    | _ => exact ih

/-- What is emitted has the fields that the source asks for. -/
theorem fields_eq (h : Answered names home marks emitted) :
    emitted.filterMap Trace.field? = marks.filterMap Trace.field? := by
  have hall : List.Forall₂ Eq (marks.filterMap Trace.field?) (emitted.filterMap Trace.field?) := by
    refine h.pick fun mark one hone => ?_
    cases hone with
    | field attr => exact .some rfl
    | _ => exact .none
  exact (List.forall₂_eq_eq_eq ▸ hall :).symm

/-- What is emitted asks for the directives that the source asks for. -/
theorem directives_eq (h : Answered names home marks emitted) :
    emitted.filterMap Trace.directive? = marks.filterMap Trace.directive? := by
  have hall :
      List.Forall₂ Eq (marks.filterMap Trace.directive?) (emitted.filterMap Trace.directive?) := by
    refine h.pick fun mark one hone => ?_
    cases hone with
    | directive text => exact .some rfl
    | _ => exact .none
  exact (List.forall₂_eq_eq_eq ▸ hall :).symm

/-- Outside of classes, what stands in place holds no class. -/
theorem classless (h : Answered names none marks emitted) :
    (emitted.filterMap Trace.standing?).flatMap CSharp.Stmt.classes = [] := by
  have hall := becomeAll_iff.1 h.standing
  generalize marks.filterMap Trace.standing? = kinds,
    emitted.filterMap Trace.standing? = lines at hall ⊢
  induction hall with
  | nil => rfl
  | cons hfirst _ ih =>
    cases hfirst with
    | function header hbody => rw [List.flatMap_cons, CSharp.Stmt.classes_function, hbody, ih,
        List.nil_append]

end Answered

end PythonToCSharp.Lowering
