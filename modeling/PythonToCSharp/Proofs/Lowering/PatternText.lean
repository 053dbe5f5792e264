import PythonToCSharp.Proofs.Grammar.PatternPrinting
import PythonToCSharp.Proofs.Lowering.PatternTrees
import PythonToCSharp.Proofs.Lowering.Unsupported

/-!
The text that is written for a pattern: C# reads it as the tree of the pattern and as no other one,
if it can read it.

It can unless a class has a reserved name, which is written without an at sign, or C# has no
spelling for an integer.
-/

namespace PythonToCSharp.Lowering

open CSharp (escapeIdentifier)
open CSharp.Pattern (texts propertyTexts)
open CSharp.PatternSyntax

/-! ## How the text of a pattern is read -/

/-- Whether a pattern is a choice. -/
def isChoice : Python.Pattern → Bool
  | .either _ => true
  | _ => false

/-- Whether the lexicon has what a pattern itself names: its class or its integer. -/
def hasSpelling (lexicon : Lexicon) : Python.Pattern → Bool
  | .literal (.int text) => lexicon.isInteger (CSharp.intLiteral text)
  | .literal (.unary .neg (.int text)) => lexicon.isInteger (CSharp.intLiteral text)
  | .classPattern cls _ _ => lexicon.isType (Text.pieces '.' cls)
  | _ => true

/-- The lexicon has the classes and integers of a pattern, however deep they stand in it. -/
def Spelled (lexicon : Lexicon) (p : Python.Pattern) : Prop :=
  ∀ inner, p.Contains inner → hasSpelling lexicon inner = true

theorem Spelled.intro {lexicon : Lexicon} {p : Python.Pattern} (here : hasSpelling lexicon p = true)
    (parts : ∀ part ∈ p.components, Spelled lexicon part) : Spelled lexicon p := by
  intro inner hinner
  cases hinner with
  | here => exact here
  | inside hpart hrest => exact parts _ hpart inner hrest

theorem Spelled.part {lexicon : Lexicon} {p part : Python.Pattern} (h : Spelled lexicon p)
    (hpart : part ∈ p.components) : Spelled lexicon part :=
  fun inner hinner => h inner (.inside hpart hinner)

/-- The text reads as the pattern, as tightly as its kind allows. -/
structure ReadsAs (lexicon : Lexicon) (p : Python.Pattern) (text : String) : Prop where
  item : Derives lexicon .item (tokens text) [patternTree p]
  alternatives : isStar p = false → Derives lexicon (.row .alternatives) (tokens text)
    (patternTree p).alternatives
  parts : isStar p = false → isChoice p = false →
    ∃ parts, Derives lexicon (.row .parts) (tokens text) parts ∧ joined .and parts = patternTree p

namespace ReadsAs

variable {lexicon : Lexicon} {p : Python.Pattern} {text : String}

theorem pattern (h : ReadsAs lexicon p text) (hs : isStar p = false) :
    Derives lexicon .pattern (tokens text) [patternTree p] := by
  have hd := Derives.pattern (h.alternatives hs)
  rwa [joined_alternatives] at hd

theorem of_alternatives (hc : isChoice p = true)
    (h : Derives lexicon (.row .alternatives) (tokens text) (patternTree p).alternatives) :
    ReadsAs lexicon p text where
  item := by
    have hd := Derives.pattern h
    rw [joined_alternatives] at hd
    exact .item hd
  alternatives _ := h
  parts _ hc' := by
    rw [hc] at hc'
    cases hc'

theorem of_item (hs : isStar p = true) (h : Derives lexicon .item (tokens text) [patternTree p]) :
    ReadsAs lexicon p text := by
  have hne : ¬isStar p = false := by simp [hs]
  exact ⟨h, fun h => absurd h hne, fun h => absurd h hne⟩

theorem of_parts {parts : List Tree} (ht : (patternTree p).alternatives = [patternTree p])
    (h : Derives lexicon (.row .parts) (tokens text) parts)
    (hp : joined .and parts = patternTree p) : ReadsAs lexicon p text := by
  have hrow : Derives lexicon (.row .alternatives) (tokens text) [patternTree p] := by
    rw [← hp]
    exact .last (.conjunction h)
  exact ⟨.item (.pattern hrow), fun _ => ht ▸ hrow, fun _ _ => ⟨parts, h, hp⟩⟩

theorem of_primary (ht : (patternTree p).alternatives = [patternTree p])
    (h : Derives lexicon .primary (tokens text) [patternTree p]) : ReadsAs lexicon p text :=
  .of_parts ht (.last h) rfl

end ReadsAs

theorem PatternForm.isStar_eq_false {p : Python.Pattern} (h : PatternForm false p) :
    isStar p = false := by
  cases h <;> rfl

section Rendered

variable {names : LibraryNames} {lexicon : Lexicon}

theorem isOr_lowerPattern (p : Python.Pattern) (s : State) :
    (lowerPattern names p s).1.isOr = isChoice p := by
  cases p with
  | asName pattern name =>
    rw [lowerPattern]
    cases pattern <;> rfl
  | _ => rw [lowerPattern]; rfl

theorem forall₂_lowerPatterns {R : String → Python.Pattern → Prop} {items : List Python.Pattern}
    (h : ∀ item ∈ items, ∀ s, R (lowerPattern names item s).1.text item) (s : State) :
    List.Forall₂ R (texts (lowerPatterns names items s).1) items := by
  induction items generalizing s with
  | nil =>
    rw [lowerPatterns]
    exact .nil
  | cons item rest ih =>
    rw [lowerPatterns]
    exact .cons (h item List.mem_cons_self s)
      (ih (fun other ho => h other (List.mem_cons_of_mem _ ho)) _)

theorem forall₂_lowerKeywords {R : String → String × Python.Pattern → Prop}
    {keywords : List (String × Python.Pattern)}
    (h : ∀ keyword ∈ keywords, ∀ s,
      R (escapeIdentifier keyword.1 ++ ": " ++ (lowerPattern names keyword.2 s).1.text) keyword)
      (s : State) :
    List.Forall₂ R (propertyTexts (lowerKeywords names keywords s).1) keywords := by
  induction keywords generalizing s with
  | nil =>
    rw [lowerKeywords]
    exact .nil
  | cons keyword rest ih =>
    rw [lowerKeywords]
    exact .cons (h keyword List.mem_cons_self s)
      (ih (fun other ho => h other (List.mem_cons_of_mem _ ho)) _)

/-- Where there are patterns there are texts. -/
theorem ne_nil_of_forall₂ {α β : Type} {R : α → β → Prop} {as : List α} {bs : List β}
    (h : List.Forall₂ R as bs) (hn : bs ≠ []) : as ≠ [] := by
  rintro rfl
  exact hn (List.forall₂_nil_left_iff.1 h)

theorem tokens_escapeIdentifier {name : String} (h : isSourceName name = true) :
    tokens (escapeIdentifier name) = [escapeIdentifier name] :=
  tokens_word (isWord_of_isPatternName (isPatternName_escapeIdentifier h))

/-- The sign of a number needs no parentheses. -/
theorem text_negative {text : String} (h : isNumeral text = true) :
    (CSharp.Expr.unary .neg (.literal text)).text = "-" ++ text := by
  have hhead : text.toList.head? ≠ some '-' := by
    simp only [isNumeral, Bool.and_eq_true, Option.any_eq_true] at h
    obtain ⟨-, c, hc, hdigit⟩ := h
    rw [hc]
    rintro ⟨⟩
    exact absurd hdigit (by decide)
  have hplaced : CSharp.placed .unary (CSharp.Expr.literal text).level
      (CSharp.Expr.literal text).text = text := by
    rfl
  rw [CSharp.Expr.text, hplaced, CSharp.signed, CSharp.enclose, if_neg]
  · rfl
  · intro hsign
    simp only [Bool.and_eq_true, beq_iff_eq] at hsign
    exact hhead hsign.2

theorem derives_property {name text : String} {p : Python.Pattern}
    (hname : isSourceName name = true)
    (h : Derives lexicon .pattern (tokens text) [patternTree p]) :
    Derives lexicon .property (tokens (escapeIdentifier name ++ ": " ++ text))
      [.property (escapeIdentifier name) (patternTree p)] := by
  have hcolon : Divides ": " [":"] := ⟨by decide, by decide, by decide⟩
  rw [hcolon.tokens_append, tokens_escapeIdentifier hname]
  exact .property (isPatternName_escapeIdentifier hname) h

theorem text_lowerPattern_asName {p : Python.Pattern} (hw : p ≠ .wildcard) (name : String)
    (s : State) : (lowerPattern names (.asName p name) s).1.text =
      CSharp.enclose (isChoice p) (lowerPattern names p s).1.text ++ " and var " ++
        escapeIdentifier name := by
  rw [← @isOr_lowerPattern names p s, lowerPattern]
  cases p with
  | wildcard => exact absurd rfl hw
  | _ => rfl

/-- A pattern gets its name behind it, a choice behind parentheses. -/
theorem ReadsAs.named {p : Python.Pattern} {text name : String} (h : ReadsAs lexicon p text)
    (hs : isStar p = false) (hw : p ≠ .wildcard) (hname : isSourceName name = true) :
    ReadsAs lexicon (.asName p name)
      (CSharp.enclose (isChoice p) text ++ " and var " ++ escapeIdentifier name) := by
  have htree := patternTree_asName hw name
  have hparts : ∃ parts, parts ≠ [] ∧ Derives lexicon (.row .parts)
      (tokens (CSharp.enclose (isChoice p) text)) parts ∧ joined .and parts = patternTree p := by
    cases hc : isChoice p with
    | false =>
      obtain ⟨parts, hd, hj⟩ := h.parts hs hc
      exact ⟨parts, hd.ne_nil, hd, hj⟩
    | true => exact ⟨[patternTree p], List.cons_ne_nil _ _,
        .last (derives_parens (h.pattern hs)), rfl⟩
  obtain ⟨parts, hn, hd, hj⟩ := hparts
  refine .of_parts ?_ (derives_named (isPatternName_escapeIdentifier hname) hd) ?_
  · rw [htree]
    rfl
  · rw [joined_append hn, hj, htree]
    rfl

/-- C# reads the text of a pattern as its tree if the lexicon has the classes and integers in it. -/
theorem readsAs_lowerPattern {inSequence : Bool} {p : Python.Pattern} (h : PatternForm inSequence p)
    (hs : Spelled lexicon p) (s : State) : ReadsAs lexicon p (lowerPattern names p s).1.text := by
  induction h generalizing s with
  | wildcard =>
    have htokens : tokens "_" = ["_"] := by decide
    have hdiscard : Derives lexicon .primary (tokens "_") [.discard] := htokens ▸ .discard
    rw [lowerPattern]
    exact .of_primary rfl hdiscard
  | capture _ h =>
    rw [lowerPattern]
    exact .of_primary rfl (derives_var (isPatternName_escapeIdentifier h))
  | int _ h =>
    rw [lowerPattern, lowerExpr]
    exact .of_primary rfl (derives_integer (isNumeral_intLiteral h) (hs _ (.here _)))
  | @negative _ text h =>
    have hnegative := derives_negative (isNumeral_intLiteral h) (hs _ (.here _))
    rw [← text_negative (isNumeral_intLiteral h)] at hnegative
    rw [lowerPattern, lowerExpr, lowerExpr]
    exact .of_primary rfl hnegative
  | bool _ value =>
    have hfalse : "false" ∈ CSharp.literalWords := by decide
    have htrue : "true" ∈ CSharp.literalWords := by decide
    rw [lowerPattern, lowerExpr]
    cases value with
    | false => exact .of_primary rfl (derives_word hfalse)
    | true => exact .of_primary rfl (derives_word htrue)
  | none =>
    have hnull : "null" ∈ CSharp.literalWords := by decide
    rw [lowerPattern, lowerExpr]
    exact .of_primary rfl (derives_word hnull)
  | value _ hn h =>
    rw [lowerPattern]
    refine .of_primary rfl (derives_path (by simpa using hn) ?_)
    rw [List.forall_mem_map]
    exact fun segment hsegment => isPatternName_escapeIdentifier (h segment hsegment)
  | @sequence _ items _ ih =>
    have hitems : List.Forall₂ (fun text t => Derives lexicon .item (tokens text) [t])
        (texts (lowerPatterns names items s).1) (patternTrees items) := by
      rw [patternTrees_eq_map, List.forall₂_map_right_iff]
      refine forall₂_lowerPatterns ?_ s
      intro item hitem s
      exact (ih item hitem (hs.part hitem) s).item
    rw [lowerPattern]
    exact .of_primary rfl (derives_list hitems)
  | @star name h =>
    have hnames : ∀ id ∈ name.map escapeIdentifier, isPatternName id = true := by
      rintro id hid
      obtain ⟨source, hsource, rfl⟩ := Option.map_eq_some_iff.1 hid
      exact isPatternName_escapeIdentifier (h source hsource)
    have hrest := @derives_restText lexicon _ hnames
    rw [Option.map_map] at hrest
    rw [lowerPattern]
    exact .of_item rfl hrest
  | @classPattern _ cls positional keywords hc hn hp hk hv ihp ihv =>
    have hwords : ∀ word ∈ Text.pieces '.' cls, isWord word = true :=
      fun word hword => isWord_of_isSourceName (hc word hword)
    have hcls : tokens cls = (Text.pieces '.' cls).intersperse "." := by
      rw [← tokens_join_point hwords, join_pieces]
    have hpositional : List.Forall₂ (fun text t => Derives lexicon .pattern (tokens text) [t])
        (texts (lowerPatterns names positional s).1) (patternTrees positional) := by
      rw [patternTrees_eq_map, List.forall₂_map_right_iff]
      refine forall₂_lowerPatterns ?_ s
      intro p hmem s
      exact (ihp p hmem (hs.part (List.mem_append_left _ hmem)) s).pattern
        (hp p hmem).isStar_eq_false
    have hkeywords : List.Forall₂ (fun text t => Derives lexicon .property (tokens text) [t])
        (propertyTexts (lowerKeywords names keywords (lowerPatterns names positional s).2).1)
        (propertyTrees keywords) := by
      rw [propertyTrees_eq_map, List.forall₂_map_right_iff]
      refine forall₂_lowerKeywords ?_ _
      intro keyword hmem s
      have hspelled := hs.part (List.mem_append_right _ (List.mem_map_of_mem hmem))
      have hvalue := (ihv keyword hmem hspelled s).pattern (hv keyword hmem).isStar_eq_false
      exact derives_property (hk keyword hmem) hvalue
    rw [lowerPattern]
    refine .of_primary rfl
      (derives_type hcls (pieces_ne_nil '.' cls) hwords (hs _ (.here _)) ?_ hpositional hkeywords)
    rcases hn with hn | hn
    · exact .inl (ne_nil_of_forall₂ hpositional (patternTrees_ne_nil hn))
    · exact .inr (ne_nil_of_forall₂ hkeywords (by simpa [propertyTrees_eq_map] using hn))
  | @either _ alternatives hn h ih =>
    have hor : Divides " or " ["or"] := ⟨by decide, by decide, by decide⟩
    have hrows : List.Forall₂ (fun text ts => Derives lexicon (.row .alternatives) (tokens text) ts)
        (texts (lowerPatterns names alternatives s).1)
          ((patternTrees alternatives).map Tree.alternatives) := by
      rw [patternTrees_eq_map, List.map_map, List.forall₂_map_right_iff]
      refine forall₂_lowerPatterns ?_ s
      intro p hp s
      exact (ih p hp (hs.part hp) s).alternatives (h p hp).isStar_eq_false
    have hjoin :=
      derives_join hor hrows (ne_nil_of_forall₂ hrows (by simpa using patternTrees_ne_nil hn))
    rw [← List.flatMap_def, ← alternatives_joined (patternTrees_ne_nil hn)] at hjoin
    rw [lowerPattern]
    exact .of_alternatives rfl hjoin
  | @asName _ p name h hname ih =>
    have hread := ih (hs.part List.mem_cons_self)
    by_cases hw : p = .wildcard
    · subst hw
      rw [lowerPattern]
      exact .of_primary rfl (derives_var (isPatternName_escapeIdentifier hname))
    · rw [text_lowerPattern_asName hw]
      exact (hread s).named h.isStar_eq_false hw hname

end Rendered

/-! ## What a tree needs of the lexicon -/

section Needed

variable {lexicon : Lexicon}

theorem PatternForm.component {inSequence : Bool} {p part : Python.Pattern}
    (h : PatternForm inSequence p)
    (hpart : part ∈ p.components) : ∃ inSequence, PatternForm inSequence part := by
  cases h with
  | sequence _ h => exact ⟨true, h part hpart⟩
  | classPattern _ _ _ hp _ hv =>
    rcases List.mem_append.1 hpart with hmem | hmem
    · exact ⟨false, hp part hmem⟩
    · obtain ⟨keyword, hkeyword, rfl⟩ := List.mem_map.1 hmem
      exact ⟨false, hv keyword hkeyword⟩
  | either _ _ h => exact ⟨false, h part hpart⟩
  | asName _ h => exact ⟨false, List.mem_singleton.1 hpart ▸ h⟩
  | _ => cases hpart

/-- The trees of the patterns in a pattern are accepted if its own tree is. -/
theorem accepted_component {inSequence : Bool} {p part : Python.Pattern}
    (h : PatternForm inSequence p)
    (ha : Accepted lexicon (patternTree p)) (hpart : part ∈ p.components) :
    Accepted lexicon (patternTree part) := by
  cases h with
  | sequence =>
    rw [patternTree, patternTrees_eq_map, Accepted.iff_components] at ha
    exact ha.2 _ (List.mem_map_of_mem hpart)
  | classPattern =>
    rw [patternTree, patternTrees_eq_map, propertyTrees_eq_map, Accepted.iff_components] at ha
    rcases List.mem_append.1 hpart with hmem | hmem
    · exact ha.2 _ (List.mem_append_left _ (List.mem_map_of_mem hmem))
    · obtain ⟨keyword, hkeyword, rfl⟩ := List.mem_map.1 hmem
      have hproperty := ha.2 _ (List.mem_append_right _ (List.mem_map_of_mem hkeyword))
      exact (Accepted.iff_components.1 hproperty).2 _ List.mem_cons_self
  | @either _ alternatives =>
    have hmem : ∀ t ∈ (patternTree part).alternatives,
        t ∈ (patternTrees alternatives).flatMap Tree.alternatives := by
      intro t ht
      rw [patternTrees_eq_map]
      exact List.mem_flatMap.2 ⟨_, List.mem_map_of_mem hpart, ht⟩
    obtain ⟨first, hfirst⟩ := List.exists_mem_of_ne_nil _ (patternTree part).alternatives_ne_nil
    rw [patternTree, Accepted.joined_iff (List.ne_nil_of_mem (hmem first hfirst)) fun _ _ =>
      ⟨rfl, rfl⟩] at ha
    rw [← joined_alternatives (patternTree part),
      Accepted.joined_iff (patternTree part).alternatives_ne_nil fun _ _ => ⟨rfl, rfl⟩]
    exact fun t ht => ha t (hmem t ht)
  | asName =>
    cases List.mem_singleton.1 hpart
    by_cases hw : part = .wildcard
    · subst hw
      exact .leaf rfl rfl
    · rw [patternTree_asName hw, Accepted.iff_components] at ha
      exact ha.2 _ List.mem_cons_self
  | _ => cases hpart

theorem isInteger_of_accepted {negative : Bool} {text : String} (hn : isNumeral text = true)
    (ha : Accepted lexicon (.constant negative text)) : lexicon.isInteger text = true := by
  have hhas := (Accepted.iff_components.1 ha).1
  have hne : text ∉ CSharp.literalWords := by
    have hall : ∀ word ∈ CSharp.literalWords, isNumeral word = false := by decide
    intro hmem
    rw [hall text hmem] at hn
    cases hn
  simpa [Lexicon.has, hne] using hhas

/-- An accepted tree is one of a pattern whose classes and integers the lexicon has. -/
theorem spelled_of_accepted {inSequence : Bool} {p : Python.Pattern} (h : PatternForm inSequence p)
    (ha : Accepted lexicon (patternTree p)) : Spelled lexicon p := by
  intro inner hinner
  induction hinner generalizing inSequence with
  | here p =>
    cases h with
    | int _ h | negative _ h => exact isInteger_of_accepted (isNumeral_intLiteral h) ha
    | classPattern => exact (Accepted.iff_components.1 ha).1
    | _ => rfl
  | inside hpart _ ih =>
    obtain ⟨_, hform⟩ := h.component hpart
    exact ih hform (accepted_component h ha hpart)

end Needed

/-! ## The text of a pattern is read back -/

theorem hasSpelling_lenient (p : Python.Pattern) : hasSpelling .lenient p = true := by
  unfold hasSpelling
  split <;> rfl

/-- C# reads the text of a pattern as its tree only, and does so if it has all classes and integers
in it. -/
theorem parses_lowerPattern_iff (names : LibraryNames) {p : Python.Pattern}
    (h : PatternForm false p) (s : State) (tree : Tree) :
    Parses (lowerPattern names p s).1.text tree ↔ tree = patternTree p ∧ Spelled .strict p := by
  have hstar := h.isStar_eq_false
  constructor
  · intro hparses
    -- the lenient lexicon reads every text, so that its tree is the one
    have hread : ReadsAs .lenient p (lowerPattern names p s).1.text :=
      readsAs_lowerPattern h (fun inner _ => hasSpelling_lenient inner) s
    have heq : [tree] = [patternTree p] := Derives.unique hparses (hread.pattern hstar)
    cases heq
    exact ⟨rfl, spelled_of_accepted h (hparses.accepted _ List.mem_cons_self)⟩
  · rintro ⟨rfl, hspelled⟩
    exact (readsAs_lowerPattern h hspelled s).pattern hstar

/-- C# reads the text of a pattern as one tree, which says the pattern, if all classes and integers
in it are ones of C#, and as none otherwise. -/
theorem pattern_text_read_back_iff (names : LibraryNames) {p : Python.Pattern}
    (h : PatternForm false p) (s : State) : ∃ tree, denoted tree = some p.normal ∧
      ∀ other, Parses (lowerPattern names p s).1.text other ↔ other = tree ∧ Spelled .strict p :=
  ⟨patternTree p, denoted_patternTree h, parses_lowerPattern_iff names h s⟩

/-- `(0o17 | -1) as n | Shape.Circle(_, event=[first, *rest])` -/
def shapePattern : Python.Pattern :=
  .either
    [.asName (.either [.literal (.int "0o17"), .literal (.unary .neg (.int "1"))]) "n",
      .classPattern "Shape.Circle" [.wildcard]
        [("event", .sequence [.capture "first", .star (some "rest")])]]

theorem shapePattern_form : PatternForm false shapePattern := by
  have hint : PatternForm false (.literal (.int "0o17")) := .int _ (by decide)
  have hneg : PatternForm false (.literal (.unary .neg (.int "1"))) := .negative _ (by decide)
  have hnumbers :
      PatternForm false (.either [.literal (.int "0o17"), .literal (.unary .neg (.int "1"))]) :=
    .either _ (List.cons_ne_nil _ _) (by simpa using ⟨hint, hneg⟩)
  have hfirst : PatternForm true (.capture "first") := .capture _ (by decide)
  have hrest : PatternForm true (.star (some "rest")) := .star (by simpa using (by decide))
  have hevent : PatternForm false (.sequence [.capture "first", .star (some "rest")]) :=
    .sequence _ (by simpa using ⟨hfirst, hrest⟩)
  have hcircle : PatternForm false (.classPattern "Shape.Circle" [.wildcard]
      [("event", .sequence [.capture "first", .star (some "rest")])]) :=
    .classPattern
      _ (by decide) (.inl (List.cons_ne_nil _ _)) (List.forall_mem_singleton.2 (.wildcard _))
      (List.forall_mem_singleton.2 (by decide)) (List.forall_mem_singleton.2 hevent)
  refine .either _ (List.cons_ne_nil _ _)
    (List.forall_mem_cons.2 ⟨?_, List.forall_mem_singleton.2 hcircle⟩)
  exact .asName _ hnumbers (by decide)

theorem shapePattern_spelled : Spelled .strict shapePattern := by
  have hleaf {p : Python.Pattern} (here : hasSpelling .strict p = true) (hp : p.components = []) :
      Spelled .strict p :=
    .intro here (by simp [hp])
  have hint : Spelled .strict (.literal (.int "0o17")) := hleaf (by decide +kernel) rfl
  have hneg : Spelled .strict (.literal (.unary .neg (.int "1"))) := hleaf (by decide +kernel) rfl
  have hnumbers :
      Spelled .strict (.either [.literal (.int "0o17"), .literal (.unary .neg (.int "1"))]) :=
    .intro rfl (by simpa [Python.Pattern.components] using ⟨hint, hneg⟩)
  have hfirst : Spelled .strict (.capture "first") := hleaf rfl rfl
  have hrest : Spelled .strict (.star (some "rest")) := hleaf rfl rfl
  have hevent : Spelled .strict (.sequence [.capture "first", .star (some "rest")]) :=
    .intro rfl (by simpa [Python.Pattern.components] using ⟨hfirst, hrest⟩)
  have hcircle : Spelled .strict (.classPattern "Shape.Circle" [.wildcard]
      [("event", .sequence [.capture "first", .star (some "rest")])]) :=
    .intro (by decide +kernel) (by simpa [Python.Pattern.components] using ⟨hleaf rfl rfl, hevent⟩)
  refine .intro rfl (List.forall_mem_cons.2 ⟨?_, List.forall_mem_singleton.2 hcircle⟩)
  exact .intro rfl (List.forall_mem_singleton.2 hnumbers)

theorem shapePattern_read_back : PatternForm false shapePattern ∧ ∃ tree,
    denoted tree = some shapePattern.normal ∧ ∀ other, Parses
      "(15 or -1) and var n or Shape.Circle(_) \x7b @event: [var first, .. var rest] \x7d" other ↔
        other = tree := by
  have htext : (lowerPattern {} shapePattern {}).1.text =
      "(15 or -1) and var n or Shape.Circle(_) \x7b @event: [var first, .. var rest] \x7d" := by
    decide +kernel
  obtain ⟨tree, hdenoted, hparses⟩ := pattern_text_read_back_iff {} shapePattern_form {}
  rw [htext] at hparses
  exact ⟨shapePattern_form, tree, hdenoted,
    fun other => by simpa [shapePattern_spelled] using hparses other⟩

/-- `event(kind=1)` -/
def eventPattern : Python.Pattern :=
  .classPattern "event" [] [("kind", .literal (.int "1"))]

/-- A class whose name is reserved in C# has no pattern. -/
theorem eventPattern_unread : PatternForm false eventPattern ∧
    (lowerPattern {} eventPattern {}).1.text = "event \x7b kind: 1 \x7d" ∧
    ∀ tree, ¬Parses "event \x7b kind: 1 \x7d" tree := by
  have hkind : PatternForm false (.literal (.int "1")) := .int _ (by decide)
  have hform : PatternForm false eventPattern :=
    .classPattern _ (by decide) (.inr (List.cons_ne_nil _ _)) (fun _ h => nomatch h)
      (List.forall_mem_singleton.2 (by decide)) (List.forall_mem_singleton.2 hkind)
  have htext : (lowerPattern {} eventPattern {}).1.text = "event \x7b kind: 1 \x7d" := by
    decide +kernel
  refine ⟨hform, htext, ?_⟩
  intro tree hparses
  rw [← htext, parses_lowerPattern_iff {} hform {}] at hparses
  have hreserved : hasSpelling .strict eventPattern = false := by decide
  rw [hparses.2 eventPattern (.here _)] at hreserved
  cases hreserved

end PythonToCSharp.Lowering
