import PythonToCSharp.Proofs.Grammar.Inclusion
import PythonToCSharp.Proofs.Lowering.Composition
import PythonToCSharp.Proofs.Naming.Expressions

/-!
Nothing that is unsupported is lost: whatever stands around it, an unsupported expression or pattern
is reported, and its source stands in the text that is written.

`Includes` says of a step that it takes another one on its way, keeps what that one finds and writes
what it gives. The lowering of an expression includes that of each of its parts; the rest is an
induction along the parts.
-/

namespace PythonToCSharp.Python

/-! ## What stands in an expression or a pattern -/

namespace Expr

/-- The direct parts of an expression, without what stands in the parameters of a lambda. -/
def components : Expr → List Expr
  | .lambda _ body => [body]
  | .comprehension _ element value clauses =>
      clauses.flatMap Clause.parts ++ element :: value.toList
  | e => e.children

/-- The second expression stands in the first, at any depth. -/
inductive Contains : Expr → Expr → Prop where
  | here (e : Expr) : Contains e e
  | inside {e part inner : Expr} : part ∈ e.components → Contains part inner → Contains e inner

/-- A chain has a comparison, and exactly the comprehensions of dictionaries have a value beside
their element. -/
def Regular : Expr → Prop
  | .compare _ comparisons => comparisons ≠ []
  | .comprehension kind _ value _ => value.isSome ↔ kind = .dict
  | _ => True

/-- Everything that stands in the expression is regular. -/
def WellShaped (e : Expr) : Prop :=
  ∀ inner, e.Contains inner → inner.Regular

theorem WellShaped.intro {e : Expr} (h : e.Regular)
    (hparts : ∀ part ∈ e.components, part.WellShaped) : e.WellShaped := by
  intro inner hinner
  cases hinner with
  | here => exact h
  | inside hpart hrest => exact hparts _ hpart inner hrest

theorem WellShaped.part {e part : Expr} (h : e.WellShaped) (hpart : part ∈ e.components) :
    part.WellShaped :=
  fun inner hinner => h inner (.inside hpart hinner)

end Expr

namespace Pattern

/-- The patterns that stand directly in a pattern. -/
def components : Pattern → List Pattern
  | .sequence items => items
  | .mapping items _ => items.flatMap fun entry => [entry.1, entry.2]
  | .classPattern _ positional keywords => positional ++ keywords.map Prod.snd
  | .either alternatives => alternatives
  | .asName pattern _ => [pattern]
  | _ => []

/-- The second pattern stands in the first, at any depth. -/
inductive Contains : Pattern → Pattern → Prop where
  | here (p : Pattern) : Contains p p
  | inside {p part inner : Pattern} : part ∈ p.components → Contains part inner → Contains p inner

end Pattern

/-! ## What is written -/

/-- The expressions of a clause that are written; several targets are written one by one. -/
def Clause.written : Clause → List Expr
  | .forIn (.tuple targets) iter => iter :: targets
  | .forIn (.list targets) iter => iter :: targets
  | .forIn target iter => [iter, target]
  | .onlyIf test => [test]

namespace Expr

/-- The direct parts of an expression that are written on their own. -/
def written : Expr → List Expr
  | .comprehension .dict element value clauses =>
      clauses.flatMap Clause.written ++ element :: value.toList
  | .comprehension _ element _ clauses => clauses.flatMap Clause.written ++ [element]
  | e => e.parts

/-- The second expression is written with the first. -/
inductive Writes : Expr → Expr → Prop where
  | here (e : Expr) : Writes e e
  | inside {e part inner : Expr} : part ∈ e.written → Writes part inner → Writes e inner

end Expr

variable {kind text : String} {span : Span}

/-- What is unsupported in a clause is in something that is written. -/
theorem Clause.exists_written {clause : Clause} {part : Expr} (hpart : part ∈ clause.parts)
    (h : part.Writes (.unsupported kind text span)) :
    ∃ piece ∈ clause.written, piece.Writes (.unsupported kind text span) := by
  cases clause with
  | onlyIf test => exact ⟨part, hpart, h⟩
  | forIn target iter =>
    simp only [Clause.parts, List.mem_cons, List.not_mem_nil, or_false] at hpart
    rcases hpart with rfl | rfl
    · refine ⟨part, ?_, h⟩
      cases target <;> exact List.mem_cons_self
    · cases part with
      | tuple items | list items =>
        cases h with
        | inside hitem hrest => exact ⟨_, List.mem_cons_of_mem _ hitem, hrest⟩
      | _ => exact ⟨_, List.mem_cons_of_mem _ List.mem_cons_self, h⟩

theorem exists_written_of_mem_clauses {clauses : List Clause} {part : Expr}
    (hpart : part ∈ clauses.flatMap Clause.parts) (h : part.Writes (.unsupported kind text span)) :
    ∃ piece ∈ clauses.flatMap Clause.written, piece.Writes (.unsupported kind text span) := by
  obtain ⟨clause, hclause, hmem⟩ := List.mem_flatMap.1 hpart
  obtain ⟨piece, hpiece, hwrites⟩ := Clause.exists_written hmem h
  exact ⟨piece, List.mem_flatMap.2 ⟨clause, hclause, hpiece⟩, hwrites⟩

namespace Expr

theorem writes_of_mem_components {e part : Expr} (hregular : e.Regular)
    (hpart : part ∈ e.components)
    (h : part.Writes (.unsupported kind text span)) : e.Writes (.unsupported kind text span) := by
  cases e with
  | compare left comparisons =>
    cases comparisons with
    | nil => exact absurd rfl hregular
    | cons link rest => exact .inside hpart h
  | comprehension form element value clauses =>
    rcases List.mem_append.1 hpart with hclause | hrest
    · obtain ⟨piece, hpiece, hwrites⟩ := exists_written_of_mem_clauses hclause h
      refine .inside ?_ hwrites
      cases form <;> exact List.mem_append_left _ hpiece
    · refine .inside ?_ h
      cases form with
      | dict => exact List.mem_append_right _ hrest
      | _ =>
        -- only the comprehension of a dictionary has a value
        have hvalue : value = Option.none := by simpa [Regular] using hregular
        subst hvalue
        exact List.mem_append_right _ hrest
  | _ => exact .inside hpart h

/-- What is unsupported in a well-shaped expression is written with it. -/
theorem Contains.writes {e : Expr} (h : e.Contains (.unsupported kind text span))
    (hshape : e.WellShaped) : e.Writes (.unsupported kind text span) := by
  generalize hnode : Expr.unsupported kind text span = node at h
  induction h with
  | here e =>
    subst hnode
    exact .here _
  | inside hpart _ ih =>
    subst hnode
    exact writes_of_mem_components (hshape _ (.here _)) hpart (ih (hshape.part hpart) rfl)

end Expr

end PythonToCSharp.Python

namespace PythonToCSharp.Lowering

open CSharp (Covers Within)
open CSharp.Expr (argumentTexts clauseTexts covers_piece covers_pieces entryTexts optionText
  partsText texts)

/-! ## Steps within steps -/

section Includes

variable {α β γ : Type} {shown : α → List String} {shown' : β → List String} {inner : Render γ}
  {text : γ → String}

/-- The step takes `inner` on its way, keeps what that finds and writes what that gives. -/
def Includes (step : Render α) (shown : α → List String) (inner : Render γ)
    (text : γ → String) : Prop :=
  ∀ s, ∃ middle, s.diagnostics <+: middle.diagnostics ∧
    (inner middle).2.diagnostics <+: (step s).2.diagnostics ∧
    ∃ whole ∈ shown (step s).1, Within (text (inner middle).1) whole

namespace Includes

theorem here (inner : Render γ) (text : γ → String) :
    Includes inner (fun a => [text a]) inner text :=
  fun s => ⟨s, List.prefix_refl _, List.prefix_refl _, _, List.mem_cons_self, .refl _⟩

/-- The first of two steps includes it, and the second one only adds. -/
theorem first {x : Render α} {f : α → Render β} (hx : Includes x shown inner text)
    (hf : ∀ a, Composed (f a))
    (h : ∀ a s, Covers (shown a) (shown' (f a s).1)) : Includes (x >>= f) shown' inner text := by
  intro s
  obtain ⟨middle, hbefore, hafter, part, hpart, hwithin⟩ := hx s
  obtain ⟨whole, hwhole, hpiece⟩ := h (x s).1 (x s).2 part hpart
  exact ⟨middle, hbefore, hafter.trans ((hf _).diagnostics_grow _), whole, hwhole,
    hwithin.trans hpiece⟩

/-- The second of two steps includes it. -/
theorem second {x : Render α} {f : α → Render β} (hx : Composed x)
    (hf : ∀ a, Includes (f a) shown' inner text) : Includes (x >>= f) shown' inner text := by
  intro s
  obtain ⟨middle, hbefore, hafter, hshown⟩ := hf (x s).1 (x s).2
  exact ⟨middle, (hx.diagnostics_grow s).trans hbefore, hafter, hshown⟩

theorem map {x : Render α} {g : α → β} (hx : Includes x shown inner text)
    (h : ∀ a, Covers (shown a) (shown' (g a))) : Includes (do return g (← x)) shown' inner text :=
  first hx (fun _ => .pure _) fun a _ => h a

end Includes

end Includes

/-! ## The lowering of an expression includes that of its parts -/

/-- What is shown of an expression is its text. -/
def whole (e : CSharp.Expr) : List String :=
  [e.text]

section Operands

variable {left right step : Render CSharp.Expr}

/-- The step includes both operands. -/
structure Combines (step left right : Render CSharp.Expr) : Prop where
  left : Includes step whole left CSharp.Expr.text
  right : Includes step whole right CSharp.Expr.text

theorem Combines.negated (h : Combines step left right) :
    Combines (do return .unary .not (← step)) left right :=
  ⟨h.left.map fun _ => covers_piece List.mem_cons_self,
    h.right.map fun _ => covers_piece List.mem_cons_self⟩

theorem combines_infixed (op : CSharp.BinaryOp) (hl : Composed left) (hr : Composed right) :
    Combines (infixed op left right) left right where
  left := .first (.here left _) (fun _ => .map hr _) fun _ _ => covers_piece List.mem_cons_self
  right := .second hl fun _ => .map (.here right _) fun _ =>
    covers_piece (List.mem_cons_of_mem _ List.mem_cons_self)

theorem combines_sameObject (hl : Composed left) (hr : Composed right) :
    Combines (sameObject left right) left right where
  left := .first (.here left _) (fun _ => .map hr _) fun _ _ =>
    covers_piece (List.mem_cons_of_mem _ List.mem_cons_self)
  right := .second hl fun _ => .map (.here right _) fun _ =>
    covers_piece (List.mem_cons_of_mem _ (List.mem_cons_of_mem _ List.mem_cons_self))

theorem combines_contained (hl : Composed left) (hr : Composed right) :
    Combines (contained left right) left right where
  left := .second hr fun _ => .map (.here left _) fun _ =>
    covers_piece (List.mem_cons_of_mem _ List.mem_cons_self)
  right := .first (.here right _) (fun _ => .map hl _) fun container _ =>
    have hmember : Within container.text (CSharp.Expr.member container "Contains").text :=
      CSharp.Expr.within_text List.mem_cons_self
    .head (hmember.trans (CSharp.Expr.within_text List.mem_cons_self))

theorem combines_compared (op : Python.CmpOp) (withNone : Bool) (hl : Composed left)
    (hr : Composed right) : Combines (compared op withNone left right) left right := by
  cases op with
  | is =>
    cases withNone with
    | true => exact combines_infixed _ hl hr
    | false => exact combines_sameObject hl hr
  | isNot =>
    cases withNone with
    | true => exact combines_infixed _ hl hr
    | false => exact (combines_sameObject hl hr).negated
  | isIn => exact combines_contained hl hr
  | notIn => exact (combines_contained hl hr).negated
  | _ => exact combines_infixed _ hl hr

end Operands

/-! Several conditions, operators and tuples hold what they are put together from. -/

theorem within_foldl_and {t : String} (first : CSharp.Expr) (rest : List CSharp.Expr)
    (h : Within t first.text ∨ t ∈ texts rest) :
    Within t (rest.foldl (.binary .and) first).text := by
  induction rest generalizing first with
  | nil =>
    rcases h with hfirst | hrest
    · exact hfirst
    · cases hrest
  | cons next rest ih =>
    refine ih (.binary .and first next) ?_
    rcases h with hfirst | hrest
    · exact .inl (hfirst.trans (CSharp.Expr.within_text List.mem_cons_self))
    · rcases List.mem_cons.1 hrest with rfl | hrest
      · exact .inl (CSharp.Expr.within_text (List.mem_cons_of_mem _ List.mem_cons_self))
      · exact .inr hrest

theorem covers_conjunction (pieces : List CSharp.Expr) :
    Covers (texts pieces) [(conjunction pieces).text] := by
  refine .of_forall fun t ht => ?_
  cases pieces with
  | nil => cases ht
  | cons first rest =>
    refine within_foldl_and first rest ?_
    rcases List.mem_cons.1 ht with rfl | hrest
    · exact .inl (.refl _)
    · exact .inr hrest

theorem covers_tupleOf (names : LibraryNames) (items : List CSharp.Expr) :
    Covers (texts items) [(tupleOf names items).text] := by
  match items with
  | [] => exact covers_pieces nofun
  | [item] => exact covers_pieces fun _ h => List.mem_cons_of_mem _ h
  | _ :: _ :: _ => exact covers_pieces fun _ h => h

theorem left_mem_pieces_apply (op : Operator) (left right : CSharp.Expr) :
    left.text ∈ (op.apply left right).pieces := by
  cases op with
  | native op => exact List.mem_cons_self
  | helper name => exact List.mem_cons_of_mem _ List.mem_cons_self

theorem right_mem_pieces_apply (op : Operator) (left right : CSharp.Expr) :
    right.text ∈ (op.apply left right).pieces := by
  cases op with
  | native op => exact List.mem_cons_of_mem _ List.mem_cons_self
  | helper name => exact List.mem_cons_of_mem _ (List.mem_cons_of_mem _ List.mem_cons_self)

theorem covers_unpacked (value : Nat → CSharp.Expr) (targets : List CSharp.Expr) :
    Covers (texts targets)
      (clauseTexts (targets.mapIdx fun i target => .let_ target (value i))) := by
  induction targets generalizing value with
  | nil => exact nofun
  | cons target rest ih =>
    intro t ht
    rw [List.mapIdx_cons]
    rcases List.mem_cons.1 ht with rfl | hrest
    · exact ⟨_, List.mem_cons_self, .first (.first (.second (.refl _)))⟩
    · obtain ⟨whole, hwhole, hwithin⟩ := ih (fun i => value (i + 1)) t hrest
      exact ⟨whole, List.mem_cons_of_mem _ hwhole, hwithin⟩

theorem covers_targets (range : String) (iter : CSharp.Expr) (targets : List CSharp.Expr)
    (rest : List CSharp.Clause) :
    Covers (texts targets)
      (clauseTexts (.from_ (.name range) iter :: unpacked range targets ++ rest)) := by
  intro t ht
  obtain ⟨whole, hwhole, hwithin⟩ := covers_unpacked _ targets t ht
  refine ⟨whole, ?_, hwithin⟩
  rw [CSharp.Expr.clauseTexts_append]
  exact List.mem_append_left _ (List.mem_cons_of_mem _ hwhole)

theorem covers_further (clauses rest : List CSharp.Clause) :
    Covers (clauseTexts rest) (clauseTexts (clauses ++ rest)) := by
  rw [CSharp.Expr.clauseTexts_append]
  exact .of_subset fun _ h => List.mem_append_right _ h

section Parts

variable {names : LibraryNames} {part : Python.Expr}

/-- The step includes the lowering of an expression. -/
abbrev IncludesExpr {α : Type} (names : LibraryNames) (step : Render α) (shown : α → List String)
    (part : Python.Expr) : Prop :=
  Includes step shown (lowerExpr names part) CSharp.Expr.text

theorem includes_lowerList {items : List Python.Expr} (h : part ∈ items) :
    IncludesExpr names (lowerList names items) texts part := by
  induction items with
  | nil => cases h
  | cons item rest ih =>
    rcases List.mem_cons.1 h with rfl | hrest
    · exact .first (.here _ _) (fun _ => .map (composed_lowerList names rest) _) fun _ _ =>
        .head (.refl _)
    · exact .second (composed_lowerExpr names item) fun _ => .map (ih hrest) fun _ => .tail

theorem includes_lowerOption {value : Option Python.Expr} (h : part ∈ value.toList) :
    IncludesExpr names (lowerOption names value)
      (fun lowered => (optionText lowered).toList) part := by
  cases value with
  | none => cases h
  | some value =>
    rw [List.mem_singleton.1 h]
    exact .map (.here _ _) fun _ => .head (.refl _)

theorem includes_firstOperand {left : Render CSharp.Expr} (hl : Composed left)
    (link : Python.CmpOp × Python.Expr) (rest : List (Python.CmpOp × Python.Expr)) :
    Includes (lowerComparisons names left (link :: rest)) texts left CSharp.Expr.text := by
  have hr := composed_lowerExpr names link.2
  exact .first (combines_compared _ _ hl hr).left
    (fun _ => .map (composed_lowerComparisons names hr rest) _) fun _ _ => .head (.refl _)

theorem includes_lowerComparisons {left : Render CSharp.Expr} (hl : Composed left)
    {links : List (Python.CmpOp × Python.Expr)} (h : part ∈ links.map Prod.snd) :
    IncludesExpr names (lowerComparisons names left links) texts part := by
  induction links generalizing left with
  | nil => cases h
  | cons link rest ih =>
    have hr := composed_lowerExpr names link.2
    rcases List.mem_cons.1 h with rfl | hrest
    · exact .first (combines_compared _ _ hl hr).right
        (fun _ => .map (composed_lowerComparisons names hr rest) _) fun _ _ => .head (.refl _)
    · exact .second (.compared hl hr _ _) fun _ => .map (ih hr hrest) fun _ => .tail

theorem includes_lowerParts {raw : Bool} {parts : List Python.FStringPart}
    (h : part ∈ parts.flatMap Python.FStringPart.exprs) :
    IncludesExpr names (lowerParts names raw parts) (fun lowered => [partsText lowered]) part := by
  induction parts with
  | nil => cases h
  | cons piece rest ih =>
    rcases List.mem_append.1 h with hpiece | hrest
    · cases piece with
      | literal text => cases hpiece
      | interpolation e format =>
        rw [List.mem_singleton.1 hpiece]
        exact .first (.here _ _) (fun _ => .map (composed_lowerParts names raw rest) _) fun _ _ =>
          .head (.first (.first (.first (.second (.placed _ _ _)))))
    · cases piece with
      | literal text => exact .map (ih hrest) fun _ => .head (.second (.refl _))
      | interpolation e format =>
        exact .second (composed_lowerExpr names e) fun _ => .map (ih hrest) fun _ =>
          .head (.second (.refl _))

theorem includes_lowerArgs {args : List Python.Arg} (h : part ∈ args.map Python.Arg.value) :
    IncludesExpr names (lowerArgs names args) argumentTexts part := by
  induction args with
  | nil => cases h
  | cons arg rest ih =>
    have hcomposed := composed_lowerArgs names rest
    rcases List.mem_cons.1 h with rfl | hrest
    · cases arg with
      | positional value | star value =>
        exact .first (.here _ _) (fun _ => .map hcomposed _) fun _ _ => .head (.refl _)
      | keyword name value =>
        exact .first (.here _ _) (fun _ => .map hcomposed _) fun _ _ => .head (.second (.refl _))
      | doubleStar value =>
        exact .second (.warn _ _) fun _ => .first (.here _ _) (fun _ => .map hcomposed _) fun _ _ =>
          .head (.refl _)
    · cases arg with
      | positional value | star value | keyword name value =>
        exact .second (composed_lowerExpr names value) fun _ => .map (ih hrest) fun _ => .tail
      | doubleStar value =>
        exact .second (.warn _ _) fun _ => .second (composed_lowerExpr names value) fun _ =>
          .map (ih hrest) fun _ => .tail

theorem includes_lowerItems {items : List Python.DictItem}
    (h : part ∈ items.flatMap Python.DictItem.exprs) :
    IncludesExpr names (lowerItems names items) entryTexts part := by
  induction items with
  | nil => cases h
  | cons item rest ih =>
    have hcomposed := composed_lowerItems names rest
    rcases List.mem_append.1 h with hitem | hrest
    · cases item with
      | pair key value =>
        simp only [Python.DictItem.exprs, List.mem_cons, List.not_mem_nil, or_false] at hitem
        rcases hitem with rfl | rfl
        · exact .first (.here _ _) (fun _ => .bind (composed_lowerExpr names value) fun _ =>
            .map hcomposed _) fun _ _ => .head (.braced List.mem_cons_self)
        · exact .second (composed_lowerExpr names key) fun _ =>
            .first (.here _ _) (fun _ => .map hcomposed _)
            fun _ _ => .head (.braced (List.mem_cons_of_mem _ List.mem_cons_self))
      | splat value =>
        rw [List.mem_singleton.1 hitem]
        exact .second (.warn _ _) fun _ => .first (.here _ _) (fun _ => .map hcomposed _) fun _ _ =>
          .head (.refl _)
    · cases item with
      | pair key value =>
        exact .second (composed_lowerExpr names key) fun _ =>
          .second (composed_lowerExpr names value) fun _ =>
          .map (ih hrest) fun _ => .tail
      | splat value =>
        exact .second (.warn _ _) fun _ => .second (composed_lowerExpr names value) fun _ =>
          .map (ih hrest) fun _ => .tail

/-- A clause with several targets takes them from the elements of a range variable. -/
theorem includes_severalTargets {targets : List Python.Expr} {iter : Python.Expr}
    {rest : List Python.Clause}
    (ih : part ∈ rest.flatMap Python.Clause.written →
      IncludesExpr names (lowerClauses names rest) clauseTexts part)
    (h : part = iter ∨ part ∈ targets ∨ part ∈ rest.flatMap Python.Clause.written) :
    IncludesExpr names (lowerClauses names (.forIn (.tuple targets) iter :: rest))
      clauseTexts part := by
  have hrest := composed_lowerClauses names rest
  have htargets := composed_lowerList names targets
  rcases h with rfl | htarget | hfurther
  · exact .first (.here _ _)
      (fun _ => .bind (.fresh _) fun _ => .bind htargets fun _ => .map hrest _)
      fun _ _ => .head (.second (.placed _ _ _))
  · exact .second (composed_lowerExpr names iter) fun _ => .second (.fresh _) fun _ =>
      .first (includes_lowerList htarget) (fun _ => .map hrest _) fun _ _ => covers_targets _ _ _ _
  · exact .second (composed_lowerExpr names iter) fun _ => .second (.fresh _) fun _ =>
      .second htargets fun _ =>
      .map (ih hfurther) fun _ => covers_further _ _

theorem includes_lowerClauses {clauses : List Python.Clause}
    (h : part ∈ clauses.flatMap Python.Clause.written) :
    IncludesExpr names (lowerClauses names clauses) clauseTexts part := by
  induction clauses with
  | nil => cases h
  | cons clause rest ih =>
    have hrest := composed_lowerClauses names rest
    rcases List.mem_append.1 h with hclause | hfurther
    · cases clause with
      | onlyIf test =>
        rw [List.mem_singleton.1 hclause]
        exact .first (.here _ _) (fun _ => .map hrest _) fun _ _ => .head (.second (.placed _ _ _))
      | forIn target iter =>
        have htarget := composed_lowerExpr names target
        cases target with
        | tuple targets => exact includes_severalTargets ih ((List.mem_cons.1 hclause).imp id .inl)
        | list targets =>
          exact @includes_severalTargets names part targets iter rest ih
            ((List.mem_cons.1 hclause).imp id .inl)
        | _ =>
          simp only [Python.Clause.written, List.mem_cons, List.not_mem_nil, or_false] at hclause
          rcases hclause with rfl | rfl
          · exact .first (.here _ _) (fun _ => .bind htarget fun _ => .map hrest _)
              fun _ _ => .head (.second (.placed _ _ _))
          · exact .second (composed_lowerExpr names iter) fun _ => .first (.here _ _)
              (fun _ => .map hrest _) fun _ _ => .head (.first (.first (.second (.refl _))))
    · cases clause with
      | onlyIf test =>
        exact .second (composed_lowerExpr names test) fun _ => .map (ih hfurther) fun _ => .tail
      | forIn target iter =>
        have htarget := composed_lowerExpr names target
        cases target with
        | tuple targets => exact includes_severalTargets ih (.inr (.inr hfurther))
        | list targets =>
            exact @includes_severalTargets names part targets iter rest ih (.inr (.inr hfurther))
        | _ =>
          exact .second (composed_lowerExpr names iter) fun _ => .second htarget fun _ =>
            .map (ih hfurther) fun _ => .tail

theorem includes_comprehension {kind : Python.ComprehensionKind} {element : Python.Expr}
    {value : Option Python.Expr} {clauses : List Python.Clause}
    (h : part ∈ (Python.Expr.comprehension kind element value clauses).written) :
    IncludesExpr names (lowerExpr names (.comprehension kind element value clauses))
      whole part := by
  have hc := composed_lowerClauses names clauses
  have he := composed_lowerExpr names element
  cases kind with
  | dict =>
    have hv := composed_lowerOption names value
    rcases List.mem_append.1 h with hclause | hrest
    · exact .first (includes_lowerClauses hclause) (fun _ => .bind he fun _ => .map hv _)
        fun _ _ => covers_pieces fun _ ht => List.mem_append_left _ ht
    · rcases List.mem_cons.1 hrest with rfl | hvalue
      · exact .second hc fun _ => .first (.here _ _) (fun _ => .map hv _)
          fun _ _ => covers_piece (List.mem_append_right _ List.mem_cons_self)
      · exact .second hc fun _ => .second he fun _ => .map (includes_lowerOption hvalue)
          fun _ => covers_pieces fun _ ht => List.mem_append_right _ (List.mem_cons_of_mem _ ht)
  | list | set | generator =>
    rcases List.mem_append.1 h with hclause | helement
    · exact .first (includes_lowerClauses hclause) (fun _ => .map he _)
        fun _ _ => covers_pieces fun _ ht => List.mem_append_left _ ht
    · rw [List.mem_singleton.1 helement]
      exact .second hc fun _ => .map (.here _ _)
        fun _ => covers_piece (List.mem_append_right _ List.mem_cons_self)

/-- The lowering of an expression includes that of each part that is written on its own. -/
theorem includes_written {e : Python.Expr} (h : part ∈ e.written) :
    IncludesExpr names (lowerExpr names e) whole part := by
  match e, h with
  | .fstring parts raw, h =>
      exact .map (includes_lowerParts h) fun _ => covers_pieces fun _ ht => ht
  | .binary left op right, h =>
    rcases List.mem_cons.1 h with rfl | hright
    · exact .first (.here _ _) (fun _ => .map (composed_lowerExpr names right) _)
        fun _ _ => covers_piece (left_mem_pieces_apply _ _ _)
    · rw [List.mem_singleton.1 hright]
      exact .second (composed_lowerExpr names left) fun _ =>
        .map (.here _ _) fun _ => covers_piece (right_mem_pieces_apply _ _ _)
  | .unary op operand, h =>
    rw [List.mem_singleton.1 h]
    exact .map (.here _ _) fun _ => covers_piece List.mem_cons_self
  | .boolean op left right, h =>
    have hboth := combines_infixed (boolOp op) (composed_lowerExpr names left)
      (composed_lowerExpr names right)
    rcases List.mem_cons.1 h with rfl | hright
    · exact hboth.left
    · rw [List.mem_singleton.1 hright]
      exact hboth.right
  | .compare left comparisons, h =>
    have hl := composed_lowerExpr names left
    cases comparisons with
    | nil => cases h
    | cons link rest =>
      rcases List.mem_cons.1 h with rfl | hright
      · exact .map (includes_firstOperand hl link rest) fun _ => covers_conjunction _
      · exact .map (includes_lowerComparisons hl hright) fun _ => covers_conjunction _
  | .ifExp test body orelse, h =>
    have ht := composed_lowerExpr names test
    have hb := composed_lowerExpr names body
    have ho := composed_lowerExpr names orelse
    simp only [Python.Expr.written, Python.Expr.parts, Python.Expr.children, List.mem_cons,
      List.not_mem_nil, or_false] at h
    rcases h with rfl | rfl | rfl
    · exact .second ht fun _ => .first (.here _ _) (fun _ => .map ho _)
        fun _ _ => covers_piece (List.mem_cons_of_mem _ List.mem_cons_self)
    · exact .first (.here _ _) (fun _ => .bind hb fun _ => .map ho _) fun _ _ =>
        covers_piece List.mem_cons_self
    · exact .second ht fun _ => .second hb fun _ => .map (.here _ _)
        fun _ => covers_piece (List.mem_cons_of_mem _ (List.mem_cons_of_mem _ List.mem_cons_self))
  | .lambda params body, h =>
    rw [List.mem_singleton.1 h]
    exact .second (composed_lowerLambdaParams params) fun _ => .map (.here _ _) fun _ =>
      covers_piece List.mem_cons_self
  | .named target value, h =>
    rw [List.mem_singleton.1 h]
    exact .second (.record target) fun _ => .second (composed_lowerName target) fun _ =>
      .map (.here _ _) fun _ => covers_piece List.mem_cons_self
  | .attribute value attr, h | .await value, h =>
    rw [List.mem_singleton.1 h]
    exact .map (.here _ _) fun _ => covers_piece List.mem_cons_self
  | .subscript value index, h =>
    rcases List.mem_cons.1 h with rfl | hindex
    · exact .first (.here _ _) (fun _ => .map (composed_lowerList names index) _)
        fun _ _ => covers_piece List.mem_cons_self
    · exact .second (composed_lowerExpr names value) fun _ => .map (includes_lowerList hindex)
        fun _ => covers_pieces fun _ ht => List.mem_cons_of_mem _ ht
  | .slice lower upper step, h =>
    have hl := composed_lowerOption names lower
    have hu := composed_lowerOption names upper
    have hs := composed_lowerOption names step
    simp only [Python.Expr.written, Python.Expr.parts, Python.Expr.children, List.mem_append,
      or_assoc] at h
    rcases h with hlower | hupper | hstep
    · exact .first (includes_lowerOption hlower) (fun _ => .bind hu fun _ => .map hs _)
        fun _ _ => covers_pieces fun _ ht => List.mem_append_left _ (List.mem_append_left _ ht)
    · exact .second hl fun _ => .first (includes_lowerOption hupper) (fun _ => .map hs _)
        fun _ _ => covers_pieces fun _ ht => List.mem_append_left _ (List.mem_append_right _ ht)
    · exact .second hl fun _ => .second hu fun _ => .map (includes_lowerOption hstep)
        fun _ => covers_pieces fun _ ht => List.mem_append_right _ ht
  | .call func args, h =>
    rcases List.mem_cons.1 h with rfl | harg
    · exact .first (.here _ _) (fun _ => .map (composed_lowerArgs names args) _)
        fun _ _ => covers_piece List.mem_cons_self
    · exact .second (composed_lowerExpr names func) fun _ => .map (includes_lowerArgs harg)
        fun _ => covers_pieces fun _ ht => List.mem_cons_of_mem _ ht
  | .list items, h
  | .set items, h => exact .map (includes_lowerList h) fun _ => covers_pieces fun _ ht => ht
  | .tuple items, h => exact .map (includes_lowerList h) fun _ => covers_tupleOf names _
  | .dict items, h => exact .map (includes_lowerItems h) fun _ => covers_pieces fun _ ht => ht
  | .comprehension _ _ _ _, h => exact includes_comprehension h
  | .yield value, h =>
    exact .second (.warn _ _) fun _ => .map (includes_lowerOption h) fun _ =>
      covers_pieces fun _ ht => ht
  | .yieldFrom value, h | .starred value, h =>
    rw [List.mem_singleton.1 h]
    exact .second (.warn _ _) fun _ => .map (.here _ _) fun _ => covers_piece List.mem_cons_self
  | .name _, h | .int _, h | .float _, h | .imaginary _, h | .str _, h | .bool _, h | .none, h
  | .ellipsis, h
  | .unsupported _ _ _, h => cases h

end Parts

/-! ## The lowering of a pattern includes that of its parts -/

section Patterns

open CSharp.Pattern (propertyTexts)

variable {names : LibraryNames} {part : Python.Pattern}

/-- The step includes the lowering of a pattern. -/
abbrev IncludesPattern {α : Type} (names : LibraryNames) (step : Render α) (shown : α → List String)
    (part : Python.Pattern) : Prop :=
  Includes step shown (lowerPattern names part) CSharp.Pattern.text

theorem includes_lowerPatterns {items : List Python.Pattern} (h : part ∈ items) :
    IncludesPattern names (lowerPatterns names items) CSharp.Pattern.texts part := by
  induction items with
  | nil => cases h
  | cons item rest ih =>
    rcases List.mem_cons.1 h with rfl | hrest
    · exact .first (.here _ _) (fun _ => .map (composed_lowerPatterns names rest) _) fun _ _ =>
        .head (.refl _)
    · exact .second (composed_lowerPattern names item) fun _ => .map (ih hrest) fun _ => .tail

theorem includes_lowerEntries {entries : List (Python.Pattern × Python.Pattern)}
    (h : part ∈ entries.flatMap fun entry => [entry.1, entry.2]) :
    IncludesPattern names (lowerEntries names entries) CSharp.Pattern.entryTexts part := by
  induction entries with
  | nil => cases h
  | cons entry rest ih =>
    have hcomposed := composed_lowerEntries names rest
    have hkey := composed_lowerPattern names entry.1
    simp only [List.flatMap_cons, List.cons_append, List.nil_append, List.mem_cons] at h
    rcases h with rfl | rfl | hrest
    · exact .first (.here _ _) (fun _ => .bind (composed_lowerPattern names entry.2) fun _ =>
        .map hcomposed _) fun _ _ => .head (.first (.first (.refl _)))
    · exact .second hkey fun _ => .first (.here _ _) (fun _ => .map hcomposed _) fun _ _ =>
        .head (.second (.refl _))
    · exact .second hkey fun _ => .second (composed_lowerPattern names entry.2) fun _ =>
        .map (ih hrest) fun _ => .tail

theorem includes_lowerKeywords {keywords : List (String × Python.Pattern)}
    (h : part ∈ keywords.map Prod.snd) :
    IncludesPattern names (lowerKeywords names keywords) propertyTexts part := by
  induction keywords with
  | nil => cases h
  | cons keyword rest ih =>
    rcases List.mem_cons.1 h with rfl | hrest
    · exact .first (.here _ _) (fun _ => .map (composed_lowerKeywords names rest) _)
        fun _ _ => .head (.second (.refl _))
    · exact .second (composed_lowerPattern names keyword.2) fun _ => .map (ih hrest) fun _ => .tail

/-- The lowering of a pattern includes that of each part, apart from a wildcard that gets a name. -/
theorem includes_component {p : Python.Pattern} (h : part ∈ p.components) (hne : part ≠ .wildcard) :
    IncludesPattern names (lowerPattern names p) (fun lowered => [lowered.text]) part := by
  cases p with
  | sequence items | either items =>
    exact .map (includes_lowerPatterns h) fun _ => CSharp.Pattern.covers_pieces fun _ ht => ht
  | mapping items rest =>
    exact .second (.warn _ _) fun _ => .map (includes_lowerEntries h)
      fun _ => CSharp.Pattern.covers_pieces fun _ ht => ht
  | classPattern cls positional keywords =>
    rcases List.mem_append.1 h with hpositional | hkeyword
    · exact .first (includes_lowerPatterns hpositional)
        (fun _ => .map (composed_lowerKeywords names keywords) _)
        fun _ _ => CSharp.Pattern.covers_pieces fun _ ht => List.mem_append_left _ ht
    · exact .second (composed_lowerPatterns names positional) fun _ =>
        .map (includes_lowerKeywords hkeyword)
        fun _ => CSharp.Pattern.covers_pieces fun _ ht => List.mem_append_right _ ht
  | asName pattern name =>
    rw [List.mem_singleton.1 h] at hne ⊢
    cases pattern with
    | wildcard => exact absurd rfl hne
    | _ => exact .map (.here _ _) fun _ => CSharp.Pattern.covers_pieces fun _ ht => ht
  | _ => cases h

end Patterns

/-! ## Nothing is lost -/

section Preserved

variable {α β : Type} {kind source : String} {span : Python.Span}

/-- The step adds a warning of the kind at the place, and the source stands in the text of what it
gives. -/
def Preserves (kind source : String) (span : Python.Span) (step : Render α)
    (text : α → String) : Prop :=
  ∀ s, ∃ added message, (step s).2.diagnostics = s.diagnostics ++ added ∧
    ⟨.warning, kind, span, message⟩ ∈ added ∧ source.toList <:+: (text (step s).1).toList

/-- What a step preserves is preserved by a step that includes it. -/
theorem Includes.preserves {step : Render α} {shown : α → String} {inner : Render β}
    {text : β → String}
    (h : Includes step (fun a => [shown a]) inner text)
    (hp : Preserves kind source span inner text) : Preserves kind source span step shown := by
  intro s
  obtain ⟨middle, ⟨before, hbefore⟩, ⟨after, hafter⟩, _, hshown, hwithin⟩ := h s
  obtain ⟨added, message, hadded, hmem, hsource⟩ := hp middle
  rw [List.mem_singleton.1 hshown] at hwithin
  refine ⟨before ++ added ++ after, message, ?_, ?_, CSharp.Within.trans hsource hwithin⟩
  · rw [← hafter, hadded, ← hbefore]
    simp only [List.append_assoc]
  · exact List.mem_append_left _ (List.mem_append_right _ hmem)

theorem preserves_of_writes {names : LibraryNames} {e : Python.Expr}
    (h : e.Writes (.unsupported kind source span)) :
    Preserves kind source span (lowerExpr names e) CSharp.Expr.text := by
  generalize hnode : Python.Expr.unsupported kind source span = node at h
  induction h with
  | here e =>
    subst hnode
    exact fun s => ⟨_, _, rfl, List.mem_cons_self, List.infix_rfl⟩
  | inside hpart _ ih => exact (includes_written hpart).preserves (ih hnode)

/-- What a part of a pattern preserves is preserved by the pattern. -/
theorem preserves_of_contains {names : LibraryNames} {p inner : Python.Pattern}
    (h : p.Contains inner)
    (hne : inner ≠ .wildcard)
    (hp : Preserves kind source span (lowerPattern names inner) CSharp.Pattern.text) :
    Preserves kind source span (lowerPattern names p) CSharp.Pattern.text := by
  induction h with
  | here p => exact hp
  | @inside p part inner hpart hrest ih =>
    refine (includes_component hpart ?_).preserves (ih hne hp)
    -- nothing stands in a wildcard but the wildcard itself
    rintro rfl
    cases hrest with
    | here => exact hne rfl
    | inside hnone _ => cases hnone

/-- Every unsupported expression and every unsupported pattern is reported with its kind and its
place, and its source stands in the text that is written, wherever it is: in a well-shaped
expression, in a pattern or in a literal of a pattern. -/
theorem unsupported_preserved (names : LibraryNames) (kind source : String) (span : Python.Span) :
    (∀ e : Python.Expr, e.WellShaped → e.Contains (.unsupported kind source span) →
      Preserves kind source span (lowerExpr names e) CSharp.Expr.text) ∧
    (∀ p : Python.Pattern, p.Contains (.unsupported kind source span) →
      Preserves kind source span (lowerPattern names p) CSharp.Pattern.text) ∧
    (∀ (p : Python.Pattern) (e : Python.Expr), p.Contains (.literal e) → e.WellShaped →
      e.Contains (.unsupported kind source span) →
      Preserves kind source span (lowerPattern names p) CSharp.Pattern.text) := by
  refine ⟨?_, ?_, ?_⟩
  · intro e hshape h
    exact preserves_of_writes (h.writes hshape)
  · intro p h
    refine preserves_of_contains h nofun ?_
    exact fun s => ⟨_, _, rfl, List.mem_cons_self, List.infix_rfl⟩
  · intro p e hliteral hshape h
    have hvalue : Preserves kind source span (lowerExpr names e) CSharp.Expr.text :=
      preserves_of_writes (h.writes hshape)
    refine preserves_of_contains hliteral nofun (Includes.preserves ?_ hvalue)
    exact .map (.here _ _) fun _ => CSharp.Pattern.covers_pieces fun _ ht => ht

/-- Two strings side by side, only one of them of bytes. -/
def mixedStrings : Python.Expr :=
  .unsupported "concatenated_string" "'a' b'c'" ⟨2, 9⟩

/-- A comprehension that has the strings among its targets. -/
def mixedTargets : Python.Expr :=
  .comprehension .list (.name "k") none
    [.forIn (.tuple [.name "k", mixedStrings]) (.name "rows"),
      .onlyIf (.compare (.name "k") [(.lt, .int "3")])]

/-- The strings as a pattern, and the comprehension as a literal beside it. -/
def mixedPattern : Python.Pattern :=
  .asName (.mapping [(.literal mixedTargets, .unsupported "concatenated_string" "'a' b'c'" ⟨2, 9⟩)]
    none) "found"

theorem mixedStrings_preserved :
    (mixedTargets.WellShaped ∧ mixedTargets.Contains mixedStrings ∧
      Preserves "concatenated_string" "'a' b'c'" ⟨2, 9⟩
        (lowerExpr {} mixedTargets) CSharp.Expr.text) ∧
    (mixedPattern.Contains (.unsupported "concatenated_string" "'a' b'c'" ⟨2, 9⟩) ∧
      Preserves "concatenated_string" "'a' b'c'" ⟨2, 9⟩
        (lowerPattern {} mixedPattern) CSharp.Pattern.text) ∧
    mixedPattern.Contains (.literal mixedTargets) ∧
      Preserves "concatenated_string" "'a' b'c'" ⟨2, 9⟩
        (lowerPattern {} mixedPattern) CSharp.Pattern.text := by
  have hleaf : ∀ e : Python.Expr, e.Regular → e.components = [] → e.WellShaped := by
    intro e h hnone
    exact .intro h (by simp [hnone])
  have hname := hleaf (.name "k") trivial rfl
  have htargets : (Python.Expr.tuple [.name "k", mixedStrings]).WellShaped :=
    .intro trivial (List.forall_mem_cons.2
      ⟨hname, List.forall_mem_singleton.2 (hleaf _ trivial rfl)⟩)
  have htest : (Python.Expr.compare (.name "k") [(.lt, .int "3")]).WellShaped :=
    .intro (List.cons_ne_nil _ _)
      (List.forall_mem_cons.2 ⟨hname, List.forall_mem_singleton.2 (hleaf _ trivial rfl)⟩)
  have hshape : mixedTargets.WellShaped := by
    refine .intro (by simp [mixedTargets, Python.Expr.Regular]) ?_
    simp only [mixedTargets, Python.Expr.components, Python.Clause.parts, List.flatMap_cons,
      List.flatMap_nil, List.cons_append, List.nil_append, List.forall_mem_cons, Option.toList_none]
    exact ⟨hleaf _ trivial rfl, htargets, htest, hname, List.forall_mem_nil _⟩
  have hinside : mixedTargets.Contains mixedStrings :=
    .inside (List.mem_cons_of_mem _ List.mem_cons_self)
      (.inside (List.mem_cons_of_mem _ List.mem_cons_self) (.here _))
  have hpattern : mixedPattern.Contains (.unsupported "concatenated_string" "'a' b'c'" ⟨2, 9⟩) :=
    .inside List.mem_cons_self (.inside (List.mem_cons_of_mem _ List.mem_cons_self) (.here _))
  have hliteral : mixedPattern.Contains (.literal mixedTargets) :=
    .inside List.mem_cons_self (.inside List.mem_cons_self (.here _))
  obtain ⟨hexpr, hunsupported, hvalue⟩ :=
    unsupported_preserved {} "concatenated_string" "'a' b'c'" ⟨2, 9⟩
  exact ⟨⟨hshape, hinside, hexpr _ hshape hinside⟩, ⟨hpattern, hunsupported _ hpattern⟩,
    hliteral, hvalue _ _ hliteral hshape hinside⟩

end Preserved

end PythonToCSharp.Lowering
