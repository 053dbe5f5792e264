import PythonToCSharp.Proofs.Classes.Bodies
import PythonToCSharp.Proofs.Layout.Buffers

/-!
Where the classes of a module stand.

A class stands in the text of the class that is the innermost definition around it. Every other
class, at the top level or anywhere in a function, stands behind the top level, in the order in
which classes are finished: one that is local to a method comes before the class of the method. No
class of the source is lost and none comes twice.
-/

namespace PythonToCSharp

/-- The class that is finished, and whether it stands in a class. -/
def Trace.placed? {δ τ : Type} : Trace δ τ → Option (Bool × τ)
  | .finished behind type => some (!behind, type)
  | _ => none

theorem Trace.placed_leaves {δ τ : Type} (ofClass : Bool) (traces : List (Trace δ τ)) :
    (traces.filter (Trace.leaves ofClass)).filterMap Trace.placed? =
      traces.filterMap Trace.placed? :=
  Trace.filterMap_leaves ofClass traces (fun _ => rfl) fun _ => rfl

namespace Python

/-! ## The classes of a tree -/

/-- The classes that are defined in a body, at any depth, each with the answer whether the innermost
definition around it is a class; `inClass` says so of the body itself. -/
def classDefs (inClass : Bool) (body : List Stmt) : List (Bool × ClassDef) :=
  (ownStatements body).attach.flatMap fun
    | ⟨⟨.functionDef definition, _⟩, _⟩ => classDefs false definition.body
    | ⟨⟨.classDef definition, _⟩, _⟩ => classDefs true definition.body ++ [(inClass, definition)]
    | _ => []
termination_by sizeOf body
decreasing_by
  · exact sizeOf_function_body_lt ‹_›
  · exact sizeOf_class_body_lt ‹_›

/-- The classes that a statement itself defines, at any depth. -/
def StmtKind.classDefs (inClass : Bool) : StmtKind → List (Bool × ClassDef)
  | .functionDef definition => Python.classDefs false definition.body
  | .classDef definition => Python.classDefs true definition.body ++ [(inClass, definition)]
  | _ => []

theorem classDefs_eq (inClass : Bool) (body : List Stmt) :
    classDefs inClass body = (ownStatements body).flatMap fun s => s.kind.classDefs inClass := by
  rw [classDefs]
  conv_rhs => rw [← List.attach_map_subtype_val (ownStatements body), List.flatMap_map]
  congr 1
  funext s
  obtain ⟨⟨kind, span⟩, hs⟩ := s
  cases kind <;> rfl

/-- The classes of a body that are to stand behind the top level, in the order in which they are
finished. -/
def deferred (site : Site) (body : List Stmt) : List ClassDef :=
  (outlineBlock site body).filterMap Trace.behind?

theorem placed_plainMarks (site : Site) (kind : StmtKind) :
    (kind.plainMarks site).filterMap Trace.placed? = [] := by
  refine List.filterMap_eq_nil_iff.2 fun mark hmark => ?_
  rcases List.mem_append.1 hmark with hfield | hdirective
  · obtain ⟨attr, -, rfl⟩ := List.mem_map.1 hfield
    rfl
  · obtain ⟨text, -, rfl⟩ := List.mem_map.1 hdirective
    rfl

/-- Each class that is defined in a body is finished once. -/
theorem placed_perm (site : Site) (body : List Stmt) :
    ((outlineBlock site body).filterMap Trace.placed?).Perm (classDefs site.home.isSome body) := by
  refine ((outlineBlock_perm site body).filterMap _).trans ?_
  rw [List.filterMap_flatMap, classDefs_eq]
  refine List.Perm.flatMap_left _ fun s hs => ?_
  obtain ⟨kind, span⟩ := s
  cases kind with
  | functionDef definition =>
    have := sizeOf_function_body_lt hs
    show (List.filterMap Trace.placed? (_ ++ [_])).Perm (classDefs false definition.body)
    rw [List.filterMap_append, Trace.placed_leaves]
    exact .trans (.of_eq (List.append_nil _)) (placed_perm (definition.site site) definition.body)
  | classDef definition =>
    have := sizeOf_class_body_lt hs
    have hlast :
        (Trace.ofClass site.home.isSome (StmtKind.classDef definition) definition).filterMap
          Trace.placed? =
        [(site.home.isSome, definition)] := by
      cases site.home.isSome <;> rfl
    show (List.filterMap Trace.placed? (_ ++ _)).Perm (classDefs true definition.body ++ [_])
    rw [List.filterMap_append, Trace.placed_leaves, hlast]
    exact (placed_perm definition.site definition.body).append_right _
  | _ => exact .of_eq (placed_plainMarks site _)
termination_by sizeOf body

/-! ## The order behind the top level -/

theorem infix_flatMap {α β : Type} {items : List α} {item : α} (h : item ∈ items) (f : α → List β) :
    f item <:+: items.flatMap f := by
  obtain ⟨front, back, rfl⟩ := List.append_of_mem h
  rw [List.flatMap_append, List.flatMap_cons, ← List.append_assoc]
  exact ⟨_, _, rfl⟩

/-- What a statement of a body leaves itself, it leaves in one stretch. -/
theorem isInfix_ownOutline (site : Site) {body : List Stmt} {s : Stmt}
    (hs : s ∈ ownStatements body) : s.kind.ownOutline site <:+: outlineBlock site body := by
  match body with
  | [] => cases hs
  | ⟨kind, span⟩ :: rest =>
    rw [outlineBlock]
    rcases mem_ownStatements_cons.1 hs with rfl | ⟨block, hblock, hinner⟩ | hrest
    · rw [kind.outline_eq site, List.append_assoc]
      exact (List.prefix_append _ _).isInfix
    · have := sizeOf_lt_of_mem_blocks hblock
      have hmem : block ∈ kind.loweredBlocks := kind.loweredBlocks_perm.mem_iff.2 hblock
      rw [kind.outline_eq site, List.append_assoc]
      refine List.IsInfix.trans ?_ (List.suffix_append _ _).isInfix
      refine List.IsInfix.trans ?_ (List.prefix_append _ _).isInfix
      exact (isInfix_ownOutline site hinner).trans (infix_flatMap hmem _)
    · exact (isInfix_ownOutline site hrest).trans (List.suffix_append _ _).isInfix
termination_by sizeOf body
decreasing_by
  all_goals simp only [List.cons.sizeOf_spec, Stmt.mk.sizeOf_spec]
  all_goals omega

/-- Right before a class that stands behind the top level come the classes in it that do. -/
theorem isInfix_deferred {definition : ClassDef} (site : Site) (body : List Stmt)
    (h : (false, definition) ∈ classDefs site.home.isSome body) :
    deferred definition.site definition.body ++ [definition] <:+: deferred site body := by
  rw [classDefs_eq, List.mem_flatMap] at h
  obtain ⟨⟨kind, span⟩, hs, hkind⟩ := h
  refine List.IsInfix.trans ?_ ((isInfix_ownOutline site hs).filterMap Trace.behind?)
  cases kind with
  | functionDef outer =>
    have := sizeOf_function_body_lt hs
    have hinner := isInfix_deferred (outer.site site) outer.body hkind
    show _ <:+: List.filterMap Trace.behind? (_ ++ _)
    rw [List.filterMap_append, Trace.behind_leaves]
    exact hinner.trans (List.prefix_append _ _).isInfix
  | classDef outer =>
    have := sizeOf_class_body_lt hs
    show _ <:+: List.filterMap Trace.behind? (_ ++ _)
    rw [List.filterMap_append, Trace.behind_leaves]
    rcases List.mem_append.1 hkind with hdeeper | hself
    · exact (isInfix_deferred outer.site outer.body hdeeper).trans (List.prefix_append _ _).isInfix
    · -- it is this class, and the innermost definition around it is none
      obtain ⟨hhome, rfl⟩ := Prod.mk.inj (List.mem_singleton.1 hself)
      rw [← hhome]
      exact List.infix_rfl
  | _ => cases hkind
termination_by sizeOf body

end Python

/-! ## The text of a file -/

namespace CSharp

open Layout

/-- Lines at the top level. -/
def linesText (lines : List String) : String :=
  String.join (lines.map (· ++ "\n"))

/-- A text behind what has been written, with a blank line between if that is not empty. -/
def followedBy (before text : String) : String :=
  if before = "" then text else before ++ "\n" ++ text

/-- The text of a file: the using directives with a blank line behind them, the lines that declare
variables and flags, the top level, and the types. -/
def File.text (width : Nat) (file : File) : String :=
  let usings := if file.usings = [] then "" else linesText file.usings ++ "\n"
  let declarations := (declarationLine "" file.valueType.text file.vars).toList ++
    (flagLine "" file.flags).toList
  (file.types.map fun declaration => printAll width 0 declaration.layout).foldl followedBy
    (usings ++ linesText declarations ++ printAll width 0 (layoutAll file.body))

theorem printAll_lines (width : Nat) (lines : List String) :
    printAll width 0 (lines.map Node.line) = linesText lines := by
  induction lines with
  | nil => rfl
  | cons line rest ih =>
    have hline : lineText width 0 line = line ++ "\n" := by
      unfold lineText indentation
      split
      · next hempty =>
        rw [hempty]
        rfl
      · rw [Nat.mul_zero, List.replicate_zero, String.ofList_nil, String.empty_append]
    rw [List.map_cons, printAll, Node.print, hline, ih, linesText, linesText, List.map_cons,
      String.join_cons]

theorem appendType_text (out : Emitter) (text : String) :
    (appendType out text).text = followedBy out.text text := by
  unfold appendType followedBy Emitter.isEmpty
  by_cases hempty : out.text = "" <;> simp [hempty, Emitter.raw, Emitter.line, lineText]

theorem foldl_appendType_text (texts : List String) (out : Emitter) :
    (texts.foldl appendType out).text = texts.foldl followedBy out.text := by
  induction texts generalizing out with
  | nil => rfl
  | cons text rest ih => rw [List.foldl_cons, ih, appendType_text, List.foldl_cons]

/-- The layout of a file has the text of the file. -/
theorem File.printAll_layout (width : Nat) (file : File) :
    printAll width 0 file.layout = file.text width := by
  let declarations := (declarationLine "" file.valueType.text file.vars).toList ++
    (flagLine "" file.flags).toList
  let top := separated (file.usings.map Node.line) ++ declarations.map Node.line ++
    layoutAll file.body
  have hshows : ∀ node ∈ top, node.shows := by
    simp only [top, List.forall_mem_append]
    exact ⟨⟨shows_separated
      (by simp [Node.shows]), by simp [Node.shows]⟩, shows_layoutAll file.body⟩
  have htop :
      printAll width 0 top = (if file.usings = [] then "" else linesText file.usings ++ "\n") ++
      linesText declarations ++ printAll width 0 (layoutAll file.body) := by
    rw [printAll_append, printAll_append, printAll_lines, separated]
    by_cases hnone : file.usings = []
    · rw [hnone]
      rfl
    · simp [hnone, printAll_append, printAll_lines, printAll, Node.print, lineText]
  have htypes := congrArg Emitter.text (foldl_appendType width file.types hshows)
  rw [foldl_appendType_text] at htypes
  have hraw (text : String) : (({ width := width } : Emitter).raw text).text = text :=
    String.empty_append
  rw [hraw, hraw, htop] at htypes
  rw [File.text, htypes]
  simp [File.layout, top, declarations, optionalLine]

end CSharp

namespace Lowering

open CSharp (classesIn classesIn_eq)
open Python (Mark classDefs deferred outlineBlock)

variable {names : LibraryNames} {home : Option String} {marks : List Mark} {emitted : List Emission}

/-- The classes behind the top level are those that the source defers, in order. -/
theorem Answered.deferred (h : Answered names home marks emitted) :
    List.Forall₂ (Declares names false) (marks.filterMap Trace.behind?)
      (emitted.filterMap Trace.behind?) := by
  refine h.pick fun mark one hone => ?_
  cases hone with
  | @finished behind definition type declared =>
    cases behind with
    | true => exact .some declared
    | false => exact .none
  | _ => exact .none

theorem Answered.placed (h : Answered names home marks emitted) :
    List.Forall₂ (fun entry type => Declares names entry.1 entry.2 type ∧ Arises names (.type type))
      (marks.filterMap Trace.placed?) (emitted.filterMap Trace.finished?) := by
  refine h.pick fun mark one hone => ?_
  cases hone with
  | finished declared arises => exact .some ⟨declared, arises⟩
  | _ => exact .none

/-- What arises at the top level is taken up by the file. -/
theorem receiveAll_top (s : State) (emitted : List Emission) :
    (s.receiveAll emitted).usings = (emitted.filterMap Trace.directive?).foldl Scope.insertNew
      s.usings ∧ (s.receiveAll emitted).types = s.types ++ emitted.filterMap Trace.behind? := by
  induction emitted generalizing s with
  | nil => exact ⟨rfl, (List.append_nil _).symm⟩
  | cons one rest ih =>
    obtain ⟨husings, htypes⟩ := ih (s.receive one)
    cases one with
    | finished behind type =>
      cases behind with
      | false => exact ⟨husings, htypes⟩
      | true => exact ⟨husings, htypes.trans (List.append_assoc _ _ _)⟩
    | _ => exact ⟨husings, htypes⟩

/-- What the lowering of a module leaves stands in the file: definitions in the top level,
directives and classes around it. -/
theorem lowerModule_leaves (names : LibraryNames) (source : Python.Module) : ∃ body after emitted,
    (lowerModule names source).run {} = .ok (moduleFile names body after, after) ∧
      Answered names none (outlineBlock ⟨none, none⟩ source.body) emitted ∧
      CSharp.definitionsIn body = emitted.filterMap Trace.standing? ∧
      after.usings = (emitted.filterMap Trace.directive?).foldl Scope.insertNew [] ∧
      after.types = emitted.filterMap Trace.behind? := by
  obtain ⟨body, after, hbody, hrun⟩ := lowerModule_closed names source
  have hstands : Stands ⟨none, none⟩ (moduleStart source) := ⟨rfl, fun _ h => (nomatch h), rfl⟩
  obtain ⟨_, _, emitted, hbody', hafter, hanswered, hholds⟩ :=
    leaves_lowerBlock names _ source.body _ hstands
  obtain ⟨rfl, rfl⟩ := run_unique hbody hbody'
  obtain ⟨husings, htypes⟩ := receiveAll_top (moduleStart source).face emitted
  rw [← hafter] at husings htypes
  exact ⟨body, after, emitted, hrun, hanswered, hholds, husings, htypes⟩

/-- The classes of a file are those of the source, in the order in which they stand there instead of
the order of their ends. -/
theorem Answered.classes {source : Python.Module} {body : Block} {after : State}
    (h : Answered names home (outlineBlock ⟨none, none⟩ source.body) emitted)
    (hbody : CSharp.definitionsIn body = emitted.filterMap Trace.standing?)
    (htypes : after.types = emitted.filterMap Trace.behind?) : ∃ types,
    List.Forall₂ (fun entry type => Declares names entry.1 entry.2 type ∧ Arises names (.type type))
      (classDefs false source.body) types ∧ types.Perm (moduleFile names body after).classes := by
  obtain ⟨types, hdeclared, hperm⟩ := List.perm_comp_forall₂
    (Python.placed_perm ⟨none, none⟩ source.body).symm h.placed
  have hkept := h.kept
  unfold Kept at hkept
  rw [← htypes, ← hbody, ← classesIn_eq] at hkept
  exact ⟨types, hdeclared, (hperm.trans hkept).trans List.perm_append_comm⟩

/-- The code for a module is the using directives, each once in the order in which they are first
asked for, what the module declares, the top level, and the classes that no class is the innermost
definition around, in the order in which they are finished. There is no class at the top level
itself. Every class of the source is declared once, either there or, if its innermost definition
around is a class, in that class. -/
theorem classes_emitted_in_place (options : Options) (source : Python.Module) :
    ∃ (file : CSharp.File) (diagnostics : List Diagnostic) (types : List CSharp.Class),
      lower options source = .ok ⟨file.text options.indentWidth, diagnostics⟩ ∧
      file.usings = ((outlineBlock ⟨none, none⟩ source.body).filterMap Trace.directive?).eraseDups ∧
      classesIn file.body = [] ∧
      List.Forall₂ (Declares options.library false) (deferred ⟨none, none⟩ source.body) file.types ∧
      (∀ definition, (false, definition) ∈ classDefs false source.body →
        deferred definition.site definition.body ++ [definition] <:+:
          deferred ⟨none, none⟩ source.body) ∧
      List.Forall₂ (fun entry type => Declares options.library entry.1 entry.2 type)
        (classDefs false source.body) types ∧
      types.Perm file.classes := by
  obtain ⟨body, after, emitted, hrun, hanswered, hbody, husings, htypes⟩ :=
    lowerModule_leaves options.library source
  obtain ⟨types, hplaced, hperm⟩ := hanswered.classes hbody htypes
  have hclassless : classesIn body = [] := by
    rw [classesIn_eq, hbody]
    exact hanswered.classless
  refine ⟨moduleFile options.library body after, after.diagnostics, types, ?_, ?_, hclassless, ?_,
    ?_, hplaced.imp fun _ _ h => h.1, hperm⟩
  · rw [lower_run hrun, CSharp.File.printAll_layout]
  · rw [hanswered.directives_eq, Scope.Frame.insertAll_eq] at husings
    show after.usings = _
    rw [husings]
    simp
  · show List.Forall₂ _ _ after.types
    rw [htypes]
    exact hanswered.deferred
  · intro definition hmem
    exact Python.isInfix_deferred ⟨none, none⟩ source.body hmem

end Lowering

end PythonToCSharp
