import PythonToCSharp.CSharp.Pattern

/-!
The text of an expression or a pattern holds, each in one piece, the texts of its parts.
`Expr.pieces` and `Pattern.pieces` list those texts, and `Covers` says of two lists that each text
of the first stands in one of the second.
-/

namespace PythonToCSharp.CSharp

open Text (join)

/-! ## Texts in texts -/

/-- A text stands in another, in one piece. -/
def Within (part whole : String) : Prop :=
  part.toList <:+: whole.toList

namespace Within

variable {part whole front behind separator : String}

theorem refl (text : String) : Within text text :=
  List.infix_rfl

theorem trans {middle : String} (h : Within part middle) (h' : Within middle whole) :
    Within part whole :=
  List.IsInfix.trans h h'

/-- The first of two texts holds it. -/
theorem first (h : Within part front) : Within part (front ++ behind) := by
  rw [Within, String.toList_append]
  exact List.IsInfix.trans h (List.prefix_append _ _).isInfix

/-- The second of two texts holds it. -/
theorem second (h : Within part behind) : Within part (front ++ behind) := by
  rw [Within, String.toList_append]
  exact List.IsInfix.trans h (List.suffix_append _ _).isInfix

theorem join {items : List String} (h : part ∈ items) : Within part (join separator items) := by
  induction items with
  | nil => cases h
  | cons item more ih =>
    cases more with
    | nil =>
      rw [List.mem_singleton.1 h]
      exact .refl item
    | cons next more =>
      rcases List.mem_cons.1 h with rfl | hmore
      · exact .first (.first (.refl _))
      · exact .second (ih hmore)

theorem enclose (needed : Bool) (text : String) : Within text (enclose needed text) := by
  cases needed with
  | false => exact .refl text
  | true => exact .first (.second (.refl text))

theorem placed (least level : Level) (text : String) : Within text (placed least level text) :=
  enclose _ text

theorem signed (op : UnaryOp) (operand : String) : Within operand (signed op operand) :=
  .second (enclose _ operand)

theorem braced {items : List String} (h : part ∈ items) : Within part (braced items) :=
  .first (.second (.join h))

theorem newCollection {type : String} {items : List String} (h : part ∈ items) :
    Within part (newCollection type items) := by
  have hne : items.isEmpty = false := List.isEmpty_eq_false_iff_exists_mem.2 ⟨part, h⟩
  simp only [CSharp.newCollection, hne]
  exact .second (.braced h)

end Within

/-- Each text of the first list stands in one of the second. -/
def Covers (parts wholes : List String) : Prop :=
  ∀ part ∈ parts, ∃ whole ∈ wholes, Within part whole

namespace Covers

variable {parts wholes more : List String} {part whole : String}

theorem of_within (h : Within part whole) (hmem : whole ∈ wholes) : Covers [part] wholes := by
  intro t ht
  rw [List.mem_singleton.1 ht]
  exact ⟨whole, hmem, h⟩

theorem of_forall (h : ∀ part ∈ parts, Within part whole) : Covers parts [whole] :=
  fun part hpart => ⟨whole, List.mem_cons_self, h part hpart⟩

theorem of_subset (h : parts ⊆ wholes) : Covers parts wholes :=
  fun part hpart => ⟨part, h hpart, .refl part⟩

/-- A text in front of the others covers what it holds. -/
theorem head (h : Within part whole) : Covers [part] (whole :: more) :=
  of_within h List.mem_cons_self

theorem tail : Covers parts (whole :: parts) :=
  of_subset fun _ h => List.mem_cons_of_mem _ h

end Covers

/-! ## Expressions -/

namespace Expr

/-- The texts of the parts that an expression is written from. -/
def pieces : Expr → List String
  | .interpolated _ parts => [partsText parts]
  | .binary _ left right => [left.text, right.text]
  | .unary _ operand => [operand.text]
  | .conditional test body orelse => [test.text, body.text, orelse.text]
  | .lambda _ body => [body.text]
  | .assign _ value => [value.text]
  | .member value _ => [value.text]
  | .index value arguments => value.text :: texts arguments
  | .range lower upper step => (optionText lower).toList ++ (optionText upper).toList ++
      (optionText step).toList
  | .call func arguments => func.text :: argumentTexts arguments
  | .create type arguments => type.text :: argumentTexts arguments
  | .collection _ items => texts items
  | .dictionary _ entries => entryTexts entries
  | .tuple items => texts items
  | .query clauses element value => clauseTexts clauses ++ element.text :: (optionText value).toList
  | .await value => [value.text]
  | .yield value => (optionText value).toList
  | .yieldFrom value => [value.text]
  | .spread value => [value.text]
  | _ => []

/-- A bound of a range is written out, whatever stands for one that is missing. -/
theorem within_boundText {t : String} {bound : Option Expr} (h : t ∈ (optionText bound).toList)
    (missing : String) : Within t ((boundText bound).getD missing) := by
  cases bound with
  | none => cases h
  | some e =>
    rw [List.mem_singleton.1 h]
    exact .placed _ _ _

theorem within_rangeText {t : String} {lower upper step : Option Expr}
    (h : t ∈ (optionText lower).toList ∨ t ∈ (optionText upper).toList ∨
      t ∈ (optionText step).toList) :
    Within t (rangeText (boundText lower) (boundText upper) (boundText step)) := by
  cases step with
  | none =>
    rcases h with hlower | hupper | hstep
    · exact .first (.first (within_boundText hlower ""))
    · exact .second (within_boundText hupper "")
    · cases hstep
  | some step =>
    rcases h with hlower | hupper | hstep
    · exact .first (.first (.first (.first (within_boundText hlower "0"))))
    · exact .first (.first (.second (within_boundText hupper "^0")))
    · rw [List.mem_singleton.1 hstep]
      exact .second (.placed _ _ _)

theorem within_selectText {t element : String} {value : Option String}
    (h : Within t element ∨ ∃ v ∈ value, Within t v) : Within t (selectText element value) := by
  cases value with
  | none =>
    rcases h with helement | ⟨v, hv, -⟩
    · exact .second helement
    · cases hv
  | some value =>
    rcases h with helement | ⟨v, hv, hwithin⟩
    · exact .first (.first (.first (.second helement)))
    · cases hv
      exact .first (.second hwithin)

/-- The text of an expression holds those of its parts. -/
theorem within_text {e : Expr} {t : String} (h : t ∈ e.pieces) : Within t e.text := by
  cases e with
  | interpolated raw parts =>
    rw [List.mem_singleton.1 h]
    exact .first (.second (.refl _))
  | binary op left right =>
    simp only [pieces, List.mem_cons, List.not_mem_nil, or_false] at h
    rcases h with rfl | rfl
    · exact .first (.first (.first (.first (.placed _ _ _))))
    · exact .second (.placed _ _ _)
  | unary op operand =>
    rw [List.mem_singleton.1 h]
    exact (Within.placed _ _ _).trans (.signed op _)
  | conditional test body orelse =>
    simp only [pieces, List.mem_cons, List.not_mem_nil, or_false] at h
    rcases h with rfl | rfl | rfl
    · exact .first (.first (.first (.first (.placed _ _ _))))
    · exact .first (.first (.second (.placed _ _ _)))
    · exact .second (.placed _ _ _)
  | lambda params body | assign target body | yieldFrom body =>
    rw [List.mem_singleton.1 h]
    exact .second (.refl _)
  | member value field =>
    rw [List.mem_singleton.1 h]
    exact .first (.first (.placed _ _ _))
  | index value arguments | call value arguments =>
    rcases List.mem_cons.1 h with rfl | harguments
    · exact .first (.first (.first (.placed _ _ _)))
    · exact .first (.second (.join harguments))
  | range lower upper step =>
    simp only [pieces, List.mem_append, or_assoc] at h
    exact within_rangeText h
  | create type arguments =>
    rcases List.mem_cons.1 h with rfl | harguments
    · exact .first (.first (.first (.second (.placed _ _ _))))
    · exact .first (.second (.join harguments))
  | collection type items | dictionary type items => exact .newCollection h
  | tuple items => exact .first (.second (.join h))
  | query clauses element value =>
    simp only [pieces, List.mem_append, List.mem_cons, Option.mem_toList] at h
    rcases h with hclause | rfl | hvalue
    · exact .join (List.mem_append_left _ hclause)
    · exact (within_selectText (.inl (.placed _ _ _))).trans
        (.join (List.mem_append_right _ List.mem_cons_self))
    · exact (within_selectText (.inr ⟨t, hvalue, .refl t⟩)).trans
        (.join (List.mem_append_right _ List.mem_cons_self))
  | await value | spread value =>
    rw [List.mem_singleton.1 h]
    exact .second (.placed _ _ _)
  | yield value =>
    cases value with
    | none => cases h
    | some value =>
      rw [List.mem_singleton.1 h]
      exact .second (.refl _)
  | _ => cases h

theorem covers_piece {e : Expr} {t : String} (h : t ∈ e.pieces) : Covers [t] [e.text] :=
  .head (within_text h)

theorem covers_pieces {e : Expr} {ts : List String} (h : ∀ t ∈ ts, t ∈ e.pieces) :
    Covers ts [e.text] :=
  .of_forall fun t ht => within_text (h t ht)

theorem clauseTexts_append (first rest : List Clause) :
    clauseTexts (first ++ rest) = clauseTexts first ++ clauseTexts rest := by
  induction first with
  | nil => rfl
  | cons clause first ih => cases clause <;> simp [clauseTexts, ih]

end Expr

/-! ## Patterns -/

namespace Pattern

/-- The texts of the parts that a pattern is written from. -/
def pieces : Pattern → List String
  | .constant value => [value.text]
  | .list items => texts items
  | .positional items => texts items
  | .entries items _ => entryTexts items
  | .type _ items properties => texts items ++ propertyTexts properties
  | .or alternatives => texts alternatives
  | .named pattern _ => [pattern.text]
  | _ => []

theorem within_positionalSuffix {t : String} {items : List String} (h : t ∈ items) :
    Within t (positionalSuffix items) := by
  have hne : items.isEmpty = false := List.isEmpty_eq_false_iff_exists_mem.2 ⟨t, h⟩
  simp only [positionalSuffix, hne]
  exact .first (.second (.join h))

theorem within_propertySuffix {t : String} {items : List String} (h : t ∈ items) :
    Within t (propertySuffix items) := by
  have hne : items.isEmpty = false := List.isEmpty_eq_false_iff_exists_mem.2 ⟨t, h⟩
  simp only [propertySuffix, hne]
  exact .second (.braced h)

/-- The text of a pattern holds those of its parts. -/
theorem within_text {p : Pattern} {t : String} (h : t ∈ p.pieces) : Within t p.text := by
  cases p with
  | constant value =>
    rw [List.mem_singleton.1 h]
    exact .refl _
  | list items | positional items => exact .first (.second (.join h))
  | entries items remaining => exact .braced (List.mem_append_left _ h)
  | type name items properties =>
    rcases List.mem_append.1 h with hitem | hproperty
    · exact .first (.second (within_positionalSuffix hitem))
    · exact .second (within_propertySuffix hproperty)
  | or alternatives => exact .join h
  | named pattern name =>
    rw [List.mem_singleton.1 h]
    exact .first (.first (.enclose _ _))
  | _ => cases h

theorem covers_pieces {p : Pattern} {ts : List String} (h : ∀ t ∈ ts, t ∈ p.pieces) :
    Covers ts [p.text] :=
  .of_forall fun t ht => within_text (h t ht)

end Pattern

end PythonToCSharp.CSharp
