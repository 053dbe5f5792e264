import Mathlib.Data.List.Perm.Subperm
import PythonToCSharp.Proofs.Concrete.Faults
import PythonToCSharp.Python.Walk
import PythonToCSharp.Reading.Module

/-!
What becomes of a concrete tree that is read: its syntax errors, or a module whose blocks follow the
nodes of the tree.

A block has one statement for each named child of its node. A statement that could be read holds
blocks in turn. Each of them is the block of a node of its own below the statement's node, whatever
the shape of the tree; a statement that could not be read stays as it is written, and nothing else
is lost with it.
-/

namespace PythonToCSharp

/-- The blocks of a statement, and the body of a definition. -/
def Python.StmtKind.bodies : Python.StmtKind → List (List Python.Stmt)
  | .functionDef definition => [definition.body]
  | .classDef definition => [definition.body]
  | kind => kind.blocks

namespace Reading

open Python Concrete

/-! ## The blocks at nodes -/

/-- The block at a node. -/
def blockAt (t : ReadTree) : List Stmt :=
  readBlock t.children

/-- The blocks at some nodes and below them. -/
def blocksIn (ts : List ReadTree) : List (List Stmt) :=
  (ts.flatMap Tree.preorder).map blockAt

/-- The blocks below some nodes. -/
def blocksBelow (ts : List ReadTree) : List (List Stmt) :=
  ts.flatMap fun t => blocksIn t.children

section Pools

variable {ts : List ReadTree} {t : ReadTree}

theorem blockAt_mem_blocksIn (h : t ∈ ts) : blockAt t ∈ blocksIn ts :=
  List.mem_map_of_mem (List.mem_flatMap.2 ⟨t, h, t.mem_preorder_self⟩)

/-- The blocks of a forest are those at its roots and those below them. -/
theorem blocksIn_perm (ts : List ReadTree) :
    (ts.map blockAt ++ blocksBelow ts).Perm (blocksIn ts) := by
  induction ts with
  | nil => exact .refl _
  | cons t rest ih =>
    have hcons : blocksIn (t :: rest) = blockAt t :: (blocksIn t.children ++ blocksIn rest) := by
      simp [blocksIn, Tree.preorder_eq, Tree.descendants]
    rw [hcons, List.map_cons, List.cons_append, blocksBelow, List.flatMap_cons]
    refine .cons _ (.trans ?_ (ih.append_left _))
    rw [← List.append_assoc, ← List.append_assoc]
    exact List.perm_append_comm.append_right _

theorem blocksBelow_subperm (ts : List ReadTree) : (blocksBelow ts).Subperm (blocksIn ts) :=
  (List.sublist_append_right _ _).subperm.trans (blocksIn_perm ts).subperm

theorem blocksIn_children_subperm (h : t ∈ ts) : (blocksIn t.children).Subperm (blocksIn ts) := by
  obtain ⟨front, rest, rfl⟩ := List.append_of_mem h
  refine List.Subperm.trans ?_ (blocksBelow_subperm _)
  rw [blocksBelow, List.flatMap_append, List.flatMap_cons]
  exact ((List.sublist_append_left _ _).trans (List.sublist_append_right _ _)).subperm

theorem blocksBelow_sublist {us : List ReadTree} (h : us.Sublist ts) :
    (blocksBelow us).Sublist (blocksBelow ts) := by
  induction h with
  | slnil => exact .refl _
  | cons t _ ih => exact ih.trans (List.sublist_append_right _ _)
  | cons_cons t _ ih => exact ih.append_left _

/-- A block at one of some nodes, and blocks below them. -/
theorem cons_subperm {body : List Stmt} {bodies : List (List Stmt)} (hbody : body ∈ ts.map blockAt)
    (hbodies : bodies.Subperm (blocksBelow ts)) : (body :: bodies).Subperm (blocksIn ts) :=
  ((List.singleton_subperm_iff.2 hbody).append hbodies).trans (blocksIn_perm ts).subperm

end Pools

/-! ## The blocks that readers find -/

section Readers

variable {children : List ReadTree} {t : ReadTree} {body : List Stmt} {kind : StmtKind}

theorem blockField_mem {name : String} (h : blockField name children = some body) :
    body ∈ children.map blockAt := by
  obtain ⟨t, hfield, rfl⟩ := Option.map_eq_some_iff.1 h
  exact List.mem_map_of_mem (List.mem_of_find?_eq_some hfield)

theorem firstBlock_mem (h : firstBlock children = some body) : body ∈ children.map blockAt := by
  obtain ⟨t, hpart, rfl⟩ := Option.map_eq_some_iff.1 h
  exact List.mem_map_of_mem (List.mem_filter.1 (List.mem_of_find?_eq_some hpart)).1

theorem mem_blocksIn_of_mem (h : body ∈ children.map blockAt) : body ∈ blocksIn children := by
  obtain ⟨t, hmem, rfl⟩ := List.mem_map.1 h
  exact blockAt_mem_blocksIn hmem

theorem orElse_mem {name : String}
    (h : (blockField name children).or (firstBlock children) = some body) :
    body ∈ blocksIn children := by
  rcases Option.or_eq_some_iff.1 h with hfield | ⟨-, hfirst⟩
  · exact mem_blocksIn_of_mem (blockField_mem hfield)
  · exact mem_blocksIn_of_mem (firstBlock_mem hfirst)

theorem readElse_mem (h : readElse t = some body) : body ∈ blocksIn t.children :=
  orElse_mem h

/-- The block of one clause goes before those of the further ones. -/
theorem clause_subperm {rest : List ReadTree} {bodies : List (List Stmt)}
    (hbody : body ∈ blocksIn t.children)
    (hbodies : bodies.Subperm (blocksBelow rest)) :
    (body :: bodies).Subperm (blocksBelow (t :: rest)) :=
  (List.singleton_subperm_iff.2 hbody).append hbodies

theorem mapM_subperm {γ : Type} {reader : ReadTree → Option γ} {part : γ → List Stmt}
    (h : ∀ t item, reader t = some item → part item ∈ blocksIn t.children) {ts : List ReadTree}
    {items : List γ}
    (hmap : ts.mapM reader = some items) : (items.map part).Subperm (blocksBelow ts) := by
  induction ts generalizing items with
  | nil =>
    obtain rfl : [] = items := by simpa using hmap
    exact .refl _
  | cons t rest ih =>
    simp only [List.mapM_cons, Option.bind_eq_bind, Option.bind_eq_some_iff, Option.pure_def,
      Option.some.injEq] at hmap
    obtain ⟨item, hitem, others, hothers, rfl⟩ := hmap
    exact clause_subperm (h t item hitem) (ih hothers)

theorem optionalElse_subperm {orelse : Option (List Stmt)}
    (h : optionalElse children = some orelse) : orelse.toList.Subperm (blocksBelow children) := by
  unfold optionalElse at h
  cases hfield : field? "alternative" children with
  | none =>
    obtain rfl : none = orelse := by simpa [hfield, optionally] using h
    exact List.nil_subperm
  | some t =>
    rw [hfield] at h
    obtain ⟨body, hbody, rfl⟩ := Option.map_eq_some_iff.1 h
    exact List.singleton_subperm_iff.2
      (List.mem_flatMap.2 ⟨t, List.mem_of_find?_eq_some hfield, readElse_mem hbody⟩)

theorem readBranch_mem {branch : Branch} (h : readBranch children = some branch) :
    branch.body ∈ children.map blockAt := by
  simp only [readBranch, Option.bind_eq_bind, Option.bind_eq_some_iff, Option.pure_def,
    Option.some.injEq] at h
  obtain ⟨test, -, body, hbody, rfl⟩ := h
  exact blockField_mem hbody

theorem readAlternatives_subperm {ts : List ReadTree} {branches : List Branch}
    {orelse : Option (List Stmt)} (h : readAlternatives ts = some (branches, orelse)) :
    (branches.map Branch.body ++ orelse.toList).Subperm (blocksBelow ts) := by
  induction ts generalizing branches orelse with
  | nil =>
    obtain ⟨rfl, rfl⟩ : [] = branches ∧ none = orelse := by simpa [readAlternatives] using h
    exact .refl _
  | cons t rest ih =>
    unfold readAlternatives at h
    split at h
    · simp only [Option.bind_eq_bind, Option.bind_eq_some_iff, Option.pure_def, Option.some.injEq,
        Prod.mk.injEq] at h
      obtain ⟨branch, hbranch, ⟨others, last⟩, hrest, rfl, rfl⟩ := h
      exact clause_subperm (mem_blocksIn_of_mem (readBranch_mem hbranch)) (ih hrest)
    · simp only [Option.bind_eq_bind, Option.bind_eq_some_iff, Option.pure_def, Option.some.injEq,
        Prod.mk.injEq] at h
      obtain ⟨body, hbody, ⟨others, last⟩, hrest, rfl, rfl⟩ := h
      -- a later `else` hides this one
      cases last with
      | some last => exact (ih hrest).trans (List.sublist_append_right _ _).subperm
      | none =>
        have hothers : (others.map Branch.body).Subperm (blocksBelow rest) := by
          simpa using ih hrest
        exact List.perm_append_comm.subperm.trans (clause_subperm (readElse_mem hbody) hothers)
    · cases h

theorem readIf_subperm (h : readIf children = some kind) :
    kind.bodies.Subperm (blocksIn children) := by
  simp only [readIf, Option.bind_eq_bind, Option.bind_eq_some_iff, Option.pure_def,
    Option.some.injEq] at h
  obtain ⟨first, hfirst, ⟨branches, orelse⟩, hrest, rfl⟩ := h
  have hbelow : (blocksBelow (fields "alternative" children)).Subperm (blocksBelow children) :=
    (blocksBelow_sublist List.filter_sublist).subperm
  exact cons_subperm (readBranch_mem hfirst) ((readAlternatives_subperm hrest).trans hbelow)

theorem readHandler_mem {handler : Handler} (h : readHandler t = some handler) :
    handler.body ∈ blocksIn t.children := by
  simp only [readHandler, Option.bind_eq_bind, Option.bind_eq_some_iff, Option.pure_def,
    Option.some.injEq] at h
  obtain ⟨body, hbody, header, -, types, -, rfl⟩ := h
  exact mem_blocksIn_of_mem (firstBlock_mem hbody)

/-- The blocks of the clauses of a `try` statement. -/
def TryClauses.bodies (clauses : TryClauses) : List (List Stmt) :=
  clauses.handlers.map Handler.body ++ (clauses.orelse.toList ++ clauses.finalbody.toList)

/-- Clauses add their blocks to those found before, or put them in the place of some of them. -/
theorem readTryClauses_subperm {ts : List ReadTree} {found clauses : TryClauses}
    (h : readTryClauses ts found = some clauses) :
    clauses.bodies.Subperm (found.bodies ++ blocksBelow ts) := by
  induction ts generalizing found with
  | nil =>
    obtain rfl : found = clauses := by simpa [readTryClauses] using h
    exact (List.append_nil _).symm ▸ .refl _
  | cons t rest ih =>
    have hclause {next : TryClauses} {body : List Stmt}
        (hrest : readTryClauses rest next = some clauses)
        (hnext : next.bodies.Subperm (body :: found.bodies)) (hbody : body ∈ blocksIn t.children) :
        clauses.bodies.Subperm (found.bodies ++ blocksBelow (t :: rest)) := by
      have hstep : clauses.bodies.Subperm (body :: found.bodies ++ blocksBelow rest) :=
        (ih hrest).trans (hnext.append (.refl _))
      have hswap : (body :: found.bodies ++ blocksBelow rest).Perm
          (found.bodies ++ body :: blocksBelow rest) :=
        List.perm_middle.symm
      have hbelow : (body :: blocksBelow rest).Subperm (blocksBelow (t :: rest)) :=
        clause_subperm hbody (.refl _)
      exact hstep.trans (hswap.subperm.trans ((List.Subperm.refl _).append hbelow))
    have hhandler (clause : readHandler t >>= (fun handler =>
        readTryClauses rest { found with handlers := found.handlers ++ [handler] }) =
          some clauses) :
        clauses.bodies.Subperm (found.bodies ++ blocksBelow (t :: rest)) := by
      obtain ⟨handler, hhandler, hrest⟩ := Option.bind_eq_some_iff.1 clause
      refine hclause hrest ?_ (readHandler_mem hhandler)
      simp only [TryClauses.bodies, List.map_append, List.map_cons, List.map_nil, List.append_assoc,
        List.cons_append, List.nil_append]
      exact List.perm_middle.subperm
    unfold readTryClauses at h
    split at h
    · exact hhandler h
    · exact hhandler h
    · obtain ⟨body, hbody, hrest⟩ := Option.bind_eq_some_iff.1 h
      refine hclause hrest ?_ (readElse_mem hbody)
      -- an earlier `else` makes room for this one
      refine List.perm_middle.subperm.trans ((List.Sublist.append_left ?_ _).cons_cons _).subperm
      exact List.sublist_append_right _ _
    · obtain ⟨body, hbody, hrest⟩ := Option.bind_eq_some_iff.1 h
      refine hclause hrest ?_ (readElse_mem hbody)
      refine ((List.Perm.append_left _ List.perm_append_comm).trans List.perm_middle).subperm.trans
        ?_
      exact ((List.Sublist.append_left (List.sublist_append_left _ _) _).cons_cons _).subperm
    · have hbelow : (blocksBelow rest).Sublist (blocksBelow (t :: rest)) :=
        List.sublist_append_right _ _
      exact (ih h).trans (hbelow.append_left _).subperm

theorem readTry_subperm (h : readTry children = some kind) :
    kind.bodies.Subperm (blocksIn children) := by
  simp only [readTry, Option.bind_eq_bind, Option.bind_eq_some_iff, Option.pure_def,
    Option.some.injEq] at h
  obtain ⟨body, hbody, clauses, hclauses, rfl⟩ := h
  have hbelow : (blocksBelow (parts children)).Subperm (blocksBelow children) :=
    (blocksBelow_sublist List.filter_sublist).subperm
  exact cons_subperm (blockField_mem hbody) ((readTryClauses_subperm hclauses).trans hbelow)

theorem readWith_subperm (h : readWith children = some kind) :
    kind.bodies.Subperm (blocksIn children) := by
  simp only [readWith, Option.bind_eq_bind, Option.bind_eq_some_iff, Option.pure_def,
    Option.some.injEq] at h
  obtain ⟨items, -, body, hbody, rfl⟩ := h
  exact cons_subperm (blockField_mem hbody) List.nil_subperm

theorem readFunction_subperm {decorators : List Expr}
    (h : readFunction children decorators = some kind) :
    kind.bodies.Subperm (blocksIn children) := by
  simp only [readFunction, Option.bind_eq_bind, Option.bind_eq_some_iff, Option.pure_def,
    Option.some.injEq] at h
  obtain ⟨name, -, params, -, returns, -, body, hbody, rfl⟩ := h
  exact cons_subperm (blockField_mem hbody) List.nil_subperm

theorem readClass_subperm {decorators : List Expr} (h : readClass children decorators = some kind) :
    kind.bodies.Subperm (blocksIn children) := by
  simp only [readClass, Option.bind_eq_bind, Option.bind_eq_some_iff, Option.pure_def,
    Option.some.injEq] at h
  obtain ⟨name, -, bases, -, body, hbody, rfl⟩ := h
  exact cons_subperm (blockField_mem hbody) List.nil_subperm

theorem readDecorated_subperm (h : readDecorated children = some kind) :
    kind.bodies.Subperm (blocksIn children) := by
  simp only [readDecorated, Option.bind_eq_bind, Option.bind_eq_some_iff] at h
  obtain ⟨decorators, -, definition, hfield, h⟩ := h
  have hinner : (blocksIn definition.children).Subperm (blocksIn children) :=
    blocksIn_children_subperm (List.mem_of_find?_eq_some hfield)
  split at h
  · exact (readFunction_subperm h).trans hinner
  · exact (readClass_subperm h).trans hinner
  · cases h

theorem readCase_mem {case : MatchCase} (h : readCase t = some case) :
    case.body ∈ blocksIn t.children := by
  unfold readCase at h
  dsimp only at h
  split at h
  all_goals
    simp only [Option.bind_eq_bind, Option.bind_eq_some_iff, Option.pure_def,
      Option.some.injEq] at h
    obtain ⟨pattern, -, guard, -, body, hbody, rfl⟩ := h
    exact orElse_mem hbody

theorem readMatch_subperm (h : readMatch children = some kind) :
    kind.bodies.Subperm (blocksIn children) := by
  unfold readMatch at h
  dsimp only at h
  split at h
  · cases h
  · simp only [Option.bind_eq_bind, Option.bind_eq_some_iff, Option.pure_def,
      Option.some.injEq] at h
    obtain ⟨subject, -, cases, hcases, rfl⟩ := h
    have hbodies := mapM_subperm (fun _ _ => readCase_mem) hcases
    refine hbodies.trans
      ((blocksBelow_sublist (List.filter_sublist.trans List.filter_sublist)).subperm.trans ?_)
    refine (blocksBelow_subperm _).trans ?_
    -- the cases stand in the body of the statement, or in the statement itself
    cases hbody : field? "body" children with
    | none => exact .refl _
    | some t => exact blocksIn_children_subperm (List.mem_of_find?_eq_some hbody)

theorem bodies_bareExpression (e : Expr) : (bareExpression e).bodies = [] := by
  unfold bareExpression
  split <;> rfl

theorem readAssignment_bodies (h : readAssignment children = some kind) : kind.bodies = [] := by
  simp only [readAssignment, Option.bind_eq_bind, Option.bind_eq_some_iff] at h
  obtain ⟨target, -, h⟩ := h
  split at h
  · simp only [Option.bind_eq_some_iff, Option.pure_def, Option.some.injEq] at h
    obtain ⟨hint, -, value, -, rfl⟩ := h
    rfl
  · simp only [Option.bind_eq_some_iff, Option.pure_def, Option.some.injEq] at h
    obtain ⟨right, -, assigned, -, rfl⟩ := h
    rfl

theorem readAugmented_bodies (h : readAugmented children = some kind) : kind.bodies = [] := by
  simp only [readAugmented, Option.bind_eq_bind, Option.bind_eq_some_iff, Option.pure_def,
    Option.some.injEq] at h
  obtain ⟨text, -, op, -, left, -, right, -, rfl⟩ := h
  rfl

theorem readExpressionStatement_bodies (h : readExpressionStatement children = some kind) :
    kind.bodies = [] := by
  unfold readExpressionStatement at h
  split at h
  · cases h
  · split at h
    · exact readAssignment_bodies h
    · exact readAugmented_bodies h
    · obtain ⟨e, -, rfl⟩ := Option.map_eq_some_iff.1 h
      exact bodies_bareExpression e
  · obtain ⟨items, -, rfl⟩ := Option.map_eq_some_iff.1 h
    rfl

theorem readRaise_bodies (h : readRaise children = some kind) : kind.bodies = [] := by
  simp only [readRaise, Option.bind_eq_bind, Option.bind_eq_some_iff, Option.pure_def,
    Option.some.injEq] at h
  obtain ⟨exc, -, cause, -, rfl⟩ := h
  rfl

theorem readDelete_bodies (h : readDelete children = some kind) : kind.bodies = [] := by
  simp only [readDelete, Option.bind_eq_bind, Option.bind_eq_some_iff, Option.pure_def] at h
  obtain ⟨target, -, h⟩ := h
  split at h
  all_goals
    obtain ⟨targets, -, rfl⟩ := by simpa only [Option.bind_eq_some_iff, Option.some.injEq] using h
    rfl

theorem readAssert_bodies (h : readAssert children = some kind) : kind.bodies = [] := by
  unfold readAssert at h
  split at h
  · cases h
  · simp only [Option.bind_eq_bind, Option.bind_eq_some_iff, Option.pure_def,
      Option.some.injEq] at h
    obtain ⟨test, -, msg, -, rfl⟩ := h
    rfl

theorem readImportFrom_bodies (h : readImportFrom children = some kind) : kind.bodies = [] := by
  simp only [readImportFrom, Option.bind_eq_bind, Option.bind_eq_some_iff, Option.pure_def,
    Option.some.injEq] at h
  obtain ⟨path, -, names, -, rfl⟩ := h
  rfl

/-- The blocks of a statement are those of nodes below its own. -/
theorem readStmt_subperm {info : Info} {expr : Option Expr}
    (h : readStmt info children expr = some kind) : kind.bodies.Subperm (blocksIn children) := by
  have hplain (hnone : kind.bodies = []) : kind.bodies.Subperm (blocksIn children) :=
    hnone ▸ List.nil_subperm
  have hsome {plain : StmtKind} (hnone : plain.bodies = []) (h : some plain = some kind) :
      kind.bodies.Subperm (blocksIn children) := hplain (Option.some.inj h ▸ hnone)
  have hmap {γ : Type} {make : γ → StmtKind} {found : Option γ}
      (hnone : ∀ part, (make part).bodies = [])
      (h : found.map make = some kind) : kind.bodies.Subperm (blocksIn children) := by
    obtain ⟨part, -, rfl⟩ := Option.map_eq_some_iff.1 h
    exact hplain (hnone part)
  unfold readStmt at h
  split at h
  · exact hsome rfl h
  · exact hplain (readExpressionStatement_bodies h)
  · exact hplain (readAssignment_bodies h)
  · exact hplain (readAugmented_bodies h)
  · exact readIf_subperm h
  · -- `while`
    simp only [Option.bind_eq_bind, Option.bind_eq_some_iff, Option.pure_def,
      Option.some.injEq] at h
    obtain ⟨test, -, body, hbody, orelse, horelse, rfl⟩ := h
    exact cons_subperm (blockField_mem hbody) (optionalElse_subperm horelse)
  · -- `for`
    simp only [Option.bind_eq_bind, Option.bind_eq_some_iff, Option.pure_def,
      Option.some.injEq] at h
    obtain ⟨target, -, iter, -, body, hbody, orelse, horelse, rfl⟩ := h
    exact cons_subperm (blockField_mem hbody) (optionalElse_subperm horelse)
  · exact readTry_subperm h
  · exact readWith_subperm h
  · exact readMatch_subperm h
  · exact readFunction_subperm h
  · exact readClass_subperm h
  · exact readDecorated_subperm h
  · exact hmap (fun _ => rfl) h
  · exact hplain (readRaise_bodies h)
  · exact hplain (readDelete_bodies h)
  · exact hplain (readAssert_bodies h)
  · exact hmap (fun _ => rfl) h
  · exact hplain (readImportFrom_bodies h)
  · exact hsome rfl h
  · exact hsome rfl h
  · exact hsome rfl h
  · exact hsome rfl h
  · exact hsome rfl h
  · exact hsome rfl h
  · exact hmap bodies_bareExpression h

end Readers

end Reading

end PythonToCSharp
