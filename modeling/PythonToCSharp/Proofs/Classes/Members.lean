import PythonToCSharp.Proofs.Classes.Bodies

/-!
Which definitions are members of a class.

The body of a class is divided statement by statement, and where a definition stands is decided by
the statement of the body that it belongs to. A definition that is such a statement itself becomes a
member. One inside an `if`, a loop, a `try`, a `with` or a `match` stays in the block of that
statement, which goes into the static constructor, although it is lowered as a method or a nested
class there too.
-/

namespace PythonToCSharp

namespace Python

/-- The definitions in the blocks of the statements of a body, those inside of other definitions
left out. -/
def heldDefinitions (body : List Stmt) : List StmtKind :=
  (((body.flatMap fun s => s.kind.blocks).flatMap ownStatements).map Stmt.kind).filter
    StmtKind.isDefinition

/-- What a statement of a class body leaves in place itself is the definition that it is. -/
theorem standing_ownOutline {site : Site} (hhome : site.home.isSome = true) (kind : StmtKind) :
    (kind.ownOutline site).filterMap Trace.standing? = [kind].filter StmtKind.isDefinition := by
  cases kind with
  | functionDef definition =>
    show List.filterMap Trace.standing? (_ ++ [_]) = _
    rw [List.filterMap_append, Trace.standing_leaves]
    rfl
  | classDef definition =>
    show List.filterMap Trace.standing? (_ ++ _) = _
    rw [List.filterMap_append, Trace.standing_leaves, hhome]
    rfl
  | _ =>
    refine List.filterMap_eq_nil_iff.2 fun mark hmark => ?_
    rcases List.mem_append.1 hmark with hfield | hdirective
    · obtain ⟨attr, -, rfl⟩ := List.mem_map.1 hfield
      rfl
    · obtain ⟨text, -, rfl⟩ := List.mem_map.1 hdirective
      rfl

theorem standing_outlineBlock {site : Site} (hhome : site.home.isSome = true) (body : List Stmt) :
    ((outlineBlock site body).filterMap Trace.standing?).Perm
      (((ownStatements body).map Stmt.kind).filter StmtKind.isDefinition) := by
  refine ((outlineBlock_perm site body).filterMap _).trans (.of_eq ?_)
  rw [List.filterMap_flatMap]
  induction ownStatements body with
  | nil => rfl
  | cons s rest ih =>
    rw [List.flatMap_cons, ih, standing_ownOutline hhome, List.map_cons, ← List.filter_append,
      List.singleton_append]

/-- The definitions that stand in place in the other statements of a class body are those in their
blocks. -/
theorem innerDefinitions_perm {site : Site} (hhome : site.home.isSome = true) (body : List Stmt) :
    (innerDefinitions site body).Perm (heldDefinitions body) := by
  induction body with
  | nil => exact .refl _
  | cons s rest ih =>
    obtain ⟨kind, span⟩ := s
    have hblocks :
        (if kind.isDefinition then [] else (kind.outline site).filterMap Trace.standing?).Perm
        (((kind.blocks.flatMap ownStatements).map Stmt.kind).filter StmtKind.isDefinition) := by
      cases hkind : kind.isDefinition with
      | true =>
        cases kind with
        | functionDef definition => exact .refl _
        | classDef definition => exact .refl _
        | _ => cases hkind
      | false =>
        refine ((kind.outline_perm site).filterMap _).trans ?_
        rw [List.filterMap_append, standing_ownOutline hhome, List.filter_singleton, hkind,
          List.filterMap_flatMap, List.map_flatMap, List.filter_flatMap]
        exact List.Perm.flatMap_left _ fun block _ => standing_outlineBlock hhome block
    have hheld : heldDefinitions (⟨kind, span⟩ :: rest) =
        ((kind.blocks.flatMap ownStatements).map Stmt.kind).filter StmtKind.isDefinition ++
          heldDefinitions rest := by
      simp [heldDefinitions]
    rw [Lowering.innerDefinitions_cons, hheld]
    exact hblocks.append ih

end Python

namespace Lowering

open CSharp (classDeclarations decoratorLines definitionsIn layoutAll staticConstructor)
open Python (directDefinitions heldDefinitions)

/-- The line declares something or holds no other line. -/
def Direct (line : CSharp.Stmt) : Prop :=
  line.isDefinition = true ∨ line.isPlain = true

theorem not_isDefinition {line : CSharp.Stmt} (h : line.isPlain = true) :
    line.isDefinition = false := by
  cases line with
  | function declaration => cases h
  | type declaration => cases h
  | _ => rfl

/-- Among lines that hold no others, all definitions stand directly. -/
theorem definitionsIn_direct {block : Block} (h : ∀ line ∈ block, Direct line) :
    definitionsIn block = block.filter CSharp.Stmt.isDefinition := by
  induction block with
  | nil => rfl
  | cons line rest ih =>
    have hrest := ih fun other hother => h other (List.mem_cons_of_mem _ hother)
    simp only [CSharp.Pick.inside_cons, hrest, List.filter_cons]
    rcases h line List.mem_cons_self with hdefinition | hplain
    · cases line with
      | function declaration => rfl
      | type declaration => rfl
      | _ => cases hdefinition
    · rw [CSharp.Pick.definitions.among_own_plain hplain, not_isDefinition hplain]
      rfl

variable (names : LibraryNames)

theorem plain_lowerKind (value : Python.Expr) (h : value.isYield = false) (s : State) :
    ∃ lines after, lowerKind names (.expr value) s = .ok (lines, after) ∧ PlainBlock lines := by
  refine ⟨(lowerExprStmt names value s).1, (lowerExprStmt names value s).2, ?_,
    givesPlain_lowerExprStmt names h s⟩
  rw [lowerKind]
  rfl

/-- A statement that goes among the members of a class. -/
theorem direct_lowerStmt {kind : Python.StmtKind} (h : memberPlace kind = .members)
    (span : Python.Span) (s : State) :
    ∃ lines after, lowerStmt names ⟨kind, span⟩ s = .ok (lines, after) ∧
      ∀ line ∈ lines, Direct line := by
  cases kind with
  | functionDef definition =>
    obtain ⟨lines, last, after, -, hrun⟩ := lowerFunctionDef_closed names definition span s
    exact ⟨_, after, hrun, fun line hline => .inl (List.mem_singleton.1 hline ▸ rfl)⟩
  | classDef definition =>
    obtain ⟨type, _, _, lines, after, -, -, hrun, hplace⟩ :=
      lowerClassDef_closed names definition span s
    refine ⟨lines, after, hrun, ?_⟩
    rcases hplace with rfl | ⟨rfl, -⟩
    · exact fun line hline => .inl (List.mem_singleton.1 hline ▸ rfl)
    · exact fun line hline => (nomatch hline)
  | expr value =>
    cases value with
    | str literal =>
      obtain ⟨lines, after, hrun, hplain⟩ :=
        plain_lowerKind names (.str literal) rfl { s with span := span }
      rw [lowerStmt]
      exact ⟨lines, _, located_eq hrun, fun line hline => .inr (hplain line hline)⟩
    | ellipsis => cases h
    | _ => cases h
  | comment text =>
    refine ⟨[comment text], s, ?_, fun line hline => .inr (List.mem_singleton.1 hline ▸ rfl)⟩
    rw [lowerStmt, lowerKind]
    rfl
  | _ => cases h

/-- The members of a class hold no other lines, apart from definitions. -/
theorem direct_lowerMembers (body : List Python.Stmt) (s : State) : ∃ lowered after,
    lowerMembers names body s = .ok (lowered, after) ∧ ∀ line ∈ lowered.members, Direct line := by
  induction body generalizing s with
  | nil => exact ⟨_, s, rfl, fun line hline => (nomatch hline)⟩
  | cons first rest ih =>
    obtain ⟨kind, span⟩ := first
    rw [lowerMembers]
    dsimp only
    cases hplace : memberPlace kind with
    | nowhere => exact ih s
    | members =>
      obtain ⟨lines, middle, hfirst, hlines⟩ := direct_lowerStmt names hplace span s
      obtain ⟨others, after, hothers, hmembers⟩ := ih middle
      exact ⟨others.add .members lines, after, (bind_run hfirst).trans (bind_run hothers),
        List.forall_mem_append.2 ⟨hlines, hmembers⟩⟩
    | initializer =>
      obtain ⟨lines, middle, hfirst, -⟩ := succeeds_lowerStmt names ⟨kind, span⟩ s
      obtain ⟨others, after, hothers, hmembers⟩ := ih middle
      exact ⟨others.add .initializer lines, after,
        (bind_run hfirst).trans (bind_run hothers), hmembers⟩

/-- The methods and classes whose innermost definition around is a class, wherever that stands:
those that are statements of its body are direct members of it, in order, and those in the blocks of
these statements stand inside the static constructor. So all are members exactly if no compound
statement of the body holds one. -/
theorem class_members_direct_iff (definition : Python.ClassDef) (span : Python.Span) (s : State) :
    ∃ (type : CSharp.Class) (lines : Block) (after : State) (inner : List Python.StmtKind),
      lowerStmt names ⟨.classDef definition, span⟩ s = .ok (lines, after) ∧
      (lines = [.type type] ∨ lines = [] ∧ ∃ earlier, after.types = earlier ++ [type]) ∧
      type.layout = decoratorLines type.decorators ++
        [.line (CSharp.classHead type.isPublic type.name type.bases),
          .block (classDeclarations type.valueType type.statics type.fields type.flags ++
            staticConstructor type.name (layoutAll type.initializer) ++ layoutAll type.members)] ∧
      List.Forall₂ (Becomes names (some definition.name)) (directDefinitions definition.body)
        (type.members.filter CSharp.Stmt.isDefinition) ∧
      definitionsIn type.members = type.members.filter CSharp.Stmt.isDefinition ∧
      inner.Perm (heldDefinitions definition.body) ∧
      List.Forall₂ (Becomes names (some definition.name)) inner (definitionsIn type.initializer) ∧
      (definitionsIn type.initializer = [] ↔ ∀ s ∈ definition.body, ∀ block ∈ s.kind.blocks,
        ∀ held ∈ Python.ownStatements block, held.kind.isDefinition = false) := by
  obtain ⟨type, lowered, last, lines, after, hbody, rfl, hrun, hplace⟩ :=
    lowerClassDef_closed names definition span s
  let start : State := { s with span := span }
  obtain ⟨_, _, emitted, hbody', -, -, hdivides⟩ :=
    leaves_lowerMembers names definition.site rfl definition.body
      _ (stands_insideClass definition start)
  obtain ⟨_, _, hbody'', hdirect⟩ :=
    direct_lowerMembers names definition.body (insideClass names definition start)
  obtain ⟨rfl, rfl⟩ := run_unique hbody hbody'
  obtain ⟨rfl, rfl⟩ := run_unique hbody hbody''
  have hmembers := becomeAll_iff.1 hdivides.members
  have hinner := becomeAll_iff.1 hdivides.initializer
  have hperm : (Python.innerDefinitions definition.site definition.body).Perm
      (heldDefinitions definition.body) :=
    Python.innerDefinitions_perm rfl definition.body
  rw [definitionsIn_direct hdirect] at hmembers
  refine ⟨_, lines, after, Python.innerDefinitions definition.site definition.body, hrun, hplace,
    CSharp.Class.layout_eq _, hmembers, definitionsIn_direct hdirect, hperm, hinner, ?_⟩
  have hempty : definitionsIn lowered.initializer = [] ↔ heldDefinitions definition.body = [] := by
    rw [← List.length_eq_zero_iff, ← hinner.length_eq, hperm.length_eq, List.length_eq_zero_iff]
  refine hempty.trans ?_
  simp only [heldDefinitions, List.filter_eq_nil_iff, List.mem_map, List.mem_flatMap]
  grind

/-- A method that is defined under a condition. -/
def conditionalMethod : Python.FunctionDef :=
  ⟨"m", [⟨"self", .normal, none, none⟩], none, [⟨.passStmt, ⟨4, 13⟩⟩], [], false⟩

/-- A class with nothing but that method. -/
def conditionalClass : Python.ClassDef :=
  ⟨"C", [], [⟨.ifChain [⟨.name "x", [⟨.functionDef conditionalMethod, ⟨3, 9⟩⟩]⟩] none, ⟨2, 5⟩⟩], []⟩

/-- The innermost definition around the method is the class, and yet it stands in the static
constructor, as a local function with a modifier that none may have. -/
theorem conditionalClass_no_member :
    ⟨.functionDef conditionalMethod, ⟨3, 9⟩⟩ ∈ Python.ownStatements conditionalClass.body ∧
    lower {} ⟨[⟨.classDef conditionalClass, ⟨1, 1⟩⟩]⟩ =
      .ok ⟨"class C\n\x7b\n    static C()\n    \x7b\n        if (x)\n" ++
      "        \x7b\n            public void m()\n            \x7b\n                ;\n            \x7d\n" ++
      "        \x7d\n    \x7d\n\x7d\n", []⟩ := by
  refine ⟨?_, rfl⟩
  exact List.mem_cons_of_mem _ List.mem_cons_self

end Lowering

end PythonToCSharp
