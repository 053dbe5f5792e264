import Mathlib.Data.List.Forall2
import PythonToCSharp.Lowering.Pattern
import PythonToCSharp.Proofs.Grammar.PatternDerivation
import PythonToCSharp.Proofs.Lowering.OperatorText

/-!
Which C# pattern a Python pattern stands for, and how a C# pattern reads as a Python one.

Reading back gives the pattern that one began with, apart from what C# does not tell apart: choices
inside choices are one choice, a choice of one is that one, and a wildcard with a name is a capture.
Integers are spelled as C# does.
-/

namespace PythonToCSharp.Python.Pattern

/-! ## Patterns that C# does not tell apart -/

/-- What a pattern leaves a choice between. -/
def choices : Pattern → List Pattern
  | .either alternatives => alternatives
  | p => [p]

/-- A choice between what several patterns leave; a choice of one is that one. -/
def choice : List Pattern → Pattern
  | [p] => p
  | alternatives => .either (alternatives.flatMap choices)

/-- A pattern with a name; a wildcard with a name is a capture. -/
def named : Pattern → String → Pattern
  | .wildcard, name => .capture name
  | p, name => .asName p name

/-- A literal with its integer as C# spells it. -/
def normalLiteral : Expr → Expr
  | .int text => .int (CSharp.intLiteral text)
  | .unary .neg (.int text) => .unary .neg (.int (CSharp.intLiteral text))
  | e => e

mutual

/-- A pattern without choices in choices and without names for wildcards. -/
def normal : Pattern → Pattern
  | .literal e => .literal (normalLiteral e)
  | .sequence items => .sequence (normals items)
  | .classPattern cls positional keywords =>
      .classPattern cls (normals positional) (normalKeywords keywords)
  | .either alternatives => choice (normals alternatives)
  | .asName pattern name => named (normal pattern) name
  | p => p

/-- Several patterns, each made normal. -/
def normals : List Pattern → List Pattern
  | [] => []
  | p :: rest => normal p :: normals rest

/-- Patterns with their keywords, each made normal. -/
def normalKeywords : List (String × Pattern) → List (String × Pattern)
  | [] => []
  | (name, p) :: rest => (name, normal p) :: normalKeywords rest

end

end PythonToCSharp.Python.Pattern

namespace PythonToCSharp.CSharp.PatternSyntax

open Python.Pattern (choices choice named)

/-! ## C# patterns as Python patterns -/

/-- A name without the at sign before it. -/
def bare (name : String) : String :=
  match name.toList with
  | '@' :: rest => String.ofList rest
  | _ => name

/-- The literal of a constant. -/
def constantLiteral (negative : Bool) (text : String) : Python.Expr :=
  if text = "true" then .bool true
  else if text = "false" then .bool false
  else if text = "null" then .none
  else if negative then .unary .neg (.int text)
  else .int text

mutual

/-- The Python pattern that a tree says, if there is one: `and` only gives names. -/
def denoted : Tree → Option Python.Pattern
  | .discard => some .wildcard
  | .var name => some (.capture (bare name))
  | .constant negative text => some (.literal (constantLiteral negative text))
  | .path segments => some (.value (Text.join "." (segments.map bare)))
  | .list items => (denotedAll items).map .sequence
  | .slice none => some (.star none)
  | .slice (some (.var name)) => some (.star (some (bare name)))
  | .slice _ => none
  | .type name arguments properties =>
    (denotedAll arguments).bind fun positional =>
      (denotedProperties properties).map (.classPattern (Text.join "." (name.map bare)) positional)
  | .property _ _ => none
  | .and left (.var name) => (denoted left).map (named · (bare name))
  | .and _ _ => none
  | .or left right =>
    (denoted left).bind fun l => (denoted right).map fun r => .either (choices l ++ choices r)

/-- The Python patterns that several trees say. -/
def denotedAll : List Tree → Option (List Python.Pattern)
  | [] => some []
  | t :: rest => (denoted t).bind fun p => (denotedAll rest).map (p :: ·)

/-- The keywords and patterns that the properties of a type say. -/
def denotedProperties : List Tree → Option (List (String × Python.Pattern))
  | [] => some []
  | .property name pattern :: rest =>
    (denoted pattern).bind fun p => (denotedProperties rest).map ((bare name, p) :: ·)
  | _ => none

end

/-- The alternatives of a tree, which `or` groups to the left. -/
def Tree.alternatives : Tree → List Tree
  | .or left right => left.alternatives ++ [right]
  | t => [t]

theorem joined_append {combine : Tree → Tree → Tree} {trees : List Tree} (hn : trees ≠ [])
    (more : List Tree) :
    joined combine (trees ++ more) = more.foldl combine (joined combine trees) := by
  obtain ⟨first, rest, rfl⟩ := List.exists_cons_of_ne_nil hn
  exact List.foldl_append

theorem Tree.alternatives_ne_nil (t : Tree) : t.alternatives ≠ [] := by
  cases t <;> simp [alternatives]

/-- The alternatives of a tree make up the tree. -/
theorem joined_alternatives (t : Tree) : joined .or t.alternatives = t := by
  fun_induction Tree.alternatives t with
  | case1 left right ih => rw [joined_append left.alternatives_ne_nil, ih]; rfl
  | case2 => rfl

theorem alternatives_foldl (t : Tree) (more : List Tree) :
    (more.foldl Tree.or t).alternatives = t.alternatives ++ more := by
  induction more generalizing t with
  | nil => simp
  | cons next more ih => simp [ih, Tree.alternatives]

/-- Trees that are put together by their alternatives have all of these. -/
theorem alternatives_joined {trees : List Tree} (hn : trees ≠ []) :
    (joined .or (trees.flatMap Tree.alternatives)).alternatives =
      trees.flatMap Tree.alternatives := by
  obtain ⟨first, rest, rfl⟩ := List.exists_cons_of_ne_nil hn
  rw [List.flatMap_cons, joined_append first.alternatives_ne_nil, joined_alternatives,
    alternatives_foldl]

/-! ## Choices are read as choices -/

theorem denoted_or {left right : Tree} {p q : Python.Pattern} (hl : denoted left = some p)
    (hr : denoted right = some q) :
    denoted (.or left right) = some (.either (choices p ++ choices q)) := by
  rw [denoted, hl, hr]
  rfl

/-- The alternatives of a tree that come behind another one are what the tree leaves a choice
between. -/
theorem denoted_foldl_alternatives {t other : Tree} {p q : Python.Pattern} (ht : denoted t = some p)
    (ho : denoted other = some q) :
    denoted (other.alternatives.foldl .or t) = some (.either (choices p ++ choices q)) := by
  fun_induction Tree.alternatives other generalizing q with
  | case1 left right ih =>
    rw [denoted] at ho
    obtain ⟨l, hl, ho⟩ := Option.bind_eq_some_iff.1 ho
    obtain ⟨r, hr, rfl⟩ := Option.map_eq_some_iff.1 ho
    rw [List.foldl_append, List.foldl_cons, List.foldl_nil, denoted_or (ih hl) hr]
    simp [choices]
  | case2 => exact denoted_or ht ho

/-- Trees that are put together by their alternatives are read as a choice. -/
theorem denoted_joined {trees : List Tree} {ps : List Python.Pattern} (hn : trees ≠ [])
    (h : List.Forall₂ (fun t p => denoted t = some p) trees ps) :
    denoted (joined .or (trees.flatMap Tree.alternatives)) = some (choice ps) := by
  cases h with
  | nil => exact absurd rfl hn
  | @cons first p rest ps hfirst hrest =>
    rw [List.flatMap_cons, joined_append first.alternatives_ne_nil, joined_alternatives]
    clear hn
    induction hrest generalizing first p with
    | nil => exact hfirst
    | @cons next q rest ps hnext hrest ih =>
      rw [List.flatMap_cons, List.foldl_append, ih (denoted_foldl_alternatives hfirst hnext)]
      cases hrest <;> simp [choice, choices]

theorem denotedAll_eq {trees : List Tree} {ps : List Python.Pattern}
    (h : List.Forall₂ (fun t p => denoted t = some p) trees ps) : denotedAll trees = some ps := by
  induction h with
  | nil => rw [denotedAll]
  | cons hfirst _ ih =>
    rw [denotedAll, hfirst, ih]
    rfl

end PythonToCSharp.CSharp.PatternSyntax

namespace PythonToCSharp.Lowering

open CSharp (escapeIdentifier isIdentifier)
open CSharp.PatternSyntax

/-! ## The C# patterns of Python patterns -/

/-- Whether a text names something in Python, where the words between patterns are operators. -/
def isSourceName (name : String) : Bool :=
  isIdentifier name.toList && !operatorWords.contains name

/-- The patterns of names, constants, integers, sequences, classes with parts, choices and patterns
with a name. A star stands directly in a sequence only, which `inSequence` says. -/
inductive PatternForm : (inSequence : Bool) → Python.Pattern → Prop where
  | wildcard (inSequence : Bool) : PatternForm inSequence .wildcard
  | capture (inSequence : Bool) {name : String} (h : isSourceName name = true) :
      PatternForm inSequence (.capture name)
  | int (inSequence : Bool) {text : String} (h : isNumeral text = true) :
      PatternForm inSequence (.literal (.int text))
  | negative (inSequence : Bool) {text : String} (h : isNumeral text = true) :
      PatternForm inSequence (.literal (.unary .neg (.int text)))
  | bool (inSequence value : Bool) : PatternForm inSequence (.literal (.bool value))
  | none (inSequence : Bool) : PatternForm inSequence (.literal .none)
  | value (inSequence : Bool) {path : String} (hn : 2 ≤ (Text.pieces '.' path).length)
      (h : ∀ segment ∈ Text.pieces '.' path, isSourceName segment = true) :
        PatternForm inSequence (.value path)
  | sequence (inSequence : Bool) {items : List Python.Pattern}
      (h : ∀ item ∈ items, PatternForm true item) : PatternForm inSequence (.sequence items)
  | star {name : Option String} (h : ∀ id ∈ name, isSourceName id = true) :
      PatternForm true (.star name)
  | classPattern (inSequence : Bool) {cls : String} {positional : List Python.Pattern}
      {keywords : List (String × Python.Pattern)}
      (hc : ∀ segment ∈ Text.pieces '.' cls, isSourceName segment = true)
      (hn : positional ≠ [] ∨ keywords ≠ []) (hp : ∀ p ∈ positional, PatternForm false p)
      (hk : ∀ keyword ∈ keywords, isSourceName keyword.1 = true)
      (hv : ∀ keyword ∈ keywords, PatternForm false keyword.2) :
      PatternForm inSequence (.classPattern cls positional keywords)
  | either (inSequence : Bool) {alternatives : List Python.Pattern} (hn : alternatives ≠ [])
      (h : ∀ p ∈ alternatives, PatternForm false p) : PatternForm inSequence (.either alternatives)
  | asName (inSequence : Bool) {p : Python.Pattern} {name : String} (h : PatternForm false p)
      (hname : isSourceName name = true) : PatternForm inSequence (.asName p name)

/-- The tree of a literal. -/
def literalTree : Python.Expr → Tree
  | .int text => .constant false (CSharp.intLiteral text)
  | .unary .neg (.int text) => .constant true (CSharp.intLiteral text)
  | .bool value => .constant false (if value then "true" else "false")
  | _ => .constant false "null"

/-- The tree of a pattern with a name. -/
def namedTree (pattern : Python.Pattern) (tree : Tree) (name : String) : Tree :=
  match pattern with
  | .wildcard => .var name
  | _ => .and tree (.var name)

mutual

/-- The tree of a pattern. -/
def patternTree : Python.Pattern → Tree
  | .wildcard => .discard
  | .capture name => .var (escapeIdentifier name)
  | .literal value => literalTree value
  | .value path => .path ((Text.pieces '.' path).map escapeIdentifier)
  | .sequence items => .list (patternTrees items)
  | .star name => .slice (name.map fun id => .var (escapeIdentifier id))
  | .classPattern cls positional keywords =>
    .type (Text.pieces '.' cls) (patternTrees positional) (propertyTrees keywords)
  | .either alternatives => joined .or ((patternTrees alternatives).flatMap Tree.alternatives)
  | .asName pattern name => namedTree pattern (patternTree pattern) (escapeIdentifier name)
  | .mapping _ _ | .unsupported _ _ _ => .discard

/-- The trees of several patterns. -/
def patternTrees : List Python.Pattern → List Tree
  | [] => []
  | p :: rest => patternTree p :: patternTrees rest

/-- The trees of the keyword patterns of a class. -/
def propertyTrees : List (String × Python.Pattern) → List Tree
  | [] => []
  | (name, p) :: rest => .property (escapeIdentifier name) (patternTree p) :: propertyTrees rest

end

theorem patternTrees_eq_map (items : List Python.Pattern) :
    patternTrees items = items.map patternTree := by
  induction items with
  | nil => rw [patternTrees, List.map_nil]
  | cons item rest ih => rw [patternTrees, List.map_cons, ih]

theorem propertyTrees_eq_map (keywords : List (String × Python.Pattern)) : propertyTrees keywords =
    keywords.map fun keyword => .property (escapeIdentifier keyword.1) (patternTree keyword.2) := by
  induction keywords with
  | nil => rw [propertyTrees, List.map_nil]
  | cons keyword rest ih => rw [propertyTrees, List.map_cons, ih]

theorem patternTree_asName {p : Python.Pattern} (hw : p ≠ .wildcard) (name : String) :
    patternTree (.asName p name) = .and (patternTree p) (.var (escapeIdentifier name)) := by
  rw [patternTree]
  cases p with
  | wildcard => exact absurd rfl hw
  | _ => rfl

/-! ## Names and integers -/

theorem isIdentifier_of_isSourceName {name : String} (h : isSourceName name = true) :
    isIdentifier name.toList = true := by
  simp only [isSourceName, Bool.and_eq_true] at h
  exact h.1

theorem isWord_of_isSourceName {name : String} (h : isSourceName name = true) :
    isWord name = true :=
  isWord_of_isIdentifier (isIdentifier_of_isSourceName h)

theorem bare_of_isSourceName {name : String} (h : isSourceName name = true) : bare name = name := by
  have hid := isIdentifier_of_isSourceName h
  unfold bare
  split
  · rename_i rest htext
    rw [htext] at hid
    exact absurd hid (by simp [isIdentifier, show CSharp.isWordChar '@' = false by decide])
  · rfl

theorem bare_escapeIdentifier {name : String} (h : isSourceName name = true) :
    bare (escapeIdentifier name) = name := by
  unfold escapeIdentifier
  split
  · simp [bare]
  · exact bare_of_isSourceName h

/-- A name of Python is one in a pattern of C#, reserved or not. -/
theorem isPatternName_escapeIdentifier {name : String} (h : isSourceName name = true) :
    isPatternName (escapeIdentifier name) = true := by
  have hname := isName_escapeIdentifier (isIdentifier_of_isSourceName h)
  simp only [isSourceName, Bool.and_eq_true, Bool.not_eq_true'] at h
  have hop : operatorWords.contains (escapeIdentifier name) = false := by
    unfold escapeIdentifier
    split
    · -- no operator begins with an at sign
      have hat : ∀ word ∈ operatorWords, word.toList.head? ≠ some '@' := by decide
      rw [← Bool.not_eq_true, List.contains_iff_mem]
      intro hmem
      exact hat _ hmem (by simp)
    · exact h.2
  simp [isPatternName, hname, hop, -List.contains_eq_mem]

theorem piecesFrom_ne_nil (mark : Char) (piece cs : List Char) :
    Text.piecesFrom mark piece cs ≠ [] := by
  induction cs generalizing piece with
  | nil => exact List.cons_ne_nil _ _
  | cons c cs ih =>
    rw [Text.piecesFrom]
    split
    · exact List.cons_ne_nil _ _
    · exact ih _

theorem pieces_ne_nil (mark : Char) (text : String) : Text.pieces mark text ≠ [] := by
  simpa [Text.pieces] using piecesFrom_ne_nil mark [] text.toList

theorem join_piecesFrom (piece cs : List Char) :
    Text.join "." ((Text.piecesFrom '.' piece cs).map String.ofList) =
      String.ofList (piece ++ cs) := by
  induction cs generalizing piece with
  | nil => simp [Text.piecesFrom, Text.join]
  | cons c cs ih =>
    rw [Text.piecesFrom]
    split
    · rename_i hc
      obtain ⟨next, rest, hpieces⟩ := List.exists_cons_of_ne_nil (piecesFrom_ne_nil '.' [] cs)
      have hrest := ih []
      rw [hpieces] at hrest ⊢
      rw [List.map_cons, List.map_cons, join_cons_cons, ← List.map_cons, hrest, hc]
      rw [← String.toList_inj]
      simp
    · rw [ih, List.append_assoc]
      rfl

/-- The pieces of a dotted name make up the name. -/
theorem join_pieces (path : String) : Text.join "." (Text.pieces '.' path) = path := by
  rw [Text.pieces, join_piecesFrom, List.nil_append, String.ofList_toList]

theorem isNumeral_ofList {c : Char} {rest : List Char} (hc : c.isDigit = true)
    (hall : ∀ d ∈ c :: rest, inWord d = true) : isNumeral (String.ofList (c :: rest)) = true := by
  simp only [isNumeral, isWord, String.toList_ofList, Bool.and_eq_true, List.all_eq_true]
  exact ⟨⟨rfl, hall⟩, hc⟩

theorem inWord_of_isDigit {c : Char} (h : c.isDigit = true) : inWord c = true := by
  simp [inWord, CSharp.isWordChar, Char.isAlphanum, h]

/-- The first character is kept if it is not one of those to be dropped. -/
theorem dropEnd_cons {p : Char → Bool} {c : Char} (h : p c = false) (cs : List Char) :
    CSharp.dropEnd p (c :: cs) = c :: CSharp.dropEnd p cs := by
  rw [CSharp.dropEnd, CSharp.dropEnd, List.reverse_cons, List.dropWhile_append]
  split
  · rename_i hempty
    simp [List.isEmpty_iff.1 hempty, h]
  · simp

/-- C#'s spelling of a number begins as a number does. -/
theorem isNumeral_intLiteral {text : String} (h : isNumeral text = true) :
    isNumeral (CSharp.intLiteral text) = true := by
  unfold CSharp.intLiteral
  split
  · rename_i value _
    have hdigits : ∀ c ∈ (toString value).toList, c.isDigit = true := by
      intro c hc
      rw [Nat.toString_eq_repr, Nat.toList_repr] at hc
      exact Nat.isDigit_of_mem_toDigits (by decide) (by decide) hc
    have hn : (toString value).toList ≠ [] := by
      rw [Nat.toString_eq_repr, Nat.toList_repr]
      exact Nat.toDigits_ne_nil
    obtain ⟨c, rest, hcs⟩ := List.exists_cons_of_ne_nil hn
    rw [hcs] at hdigits
    rw [← String.ofList_toList (s := toString value), hcs]
    exact isNumeral_ofList (hdigits c List.mem_cons_self) fun d hd =>
      inWord_of_isDigit (hdigits d hd)
  · simp only [isNumeral, isWord, Bool.and_eq_true, List.all_eq_true, Option.any_eq_true] at h
    obtain ⟨⟨-, hall⟩, c, hhead, hdigit⟩ := h
    obtain ⟨rest, hcs⟩ := List.head?_eq_some_iff.1 hhead
    have hkeep : (fun c => decide (c = 'l') || decide (c = 'L')) c = false := by
      have hne : c ≠ 'l' ∧ c ≠ 'L' := by
        constructor <;> rintro rfl <;> exact absurd hdigit (by decide)
      simp [hne]
    rw [hcs] at hall ⊢
    rw [dropEnd_cons hkeep]
    refine isNumeral_ofList hdigit ?_
    intro d hd
    rcases List.mem_cons.1 hd with rfl | hd
    · exact hall d List.mem_cons_self
    · have hmem : d ∈ rest := by
        rw [CSharp.dropEnd, List.mem_reverse] at hd
        exact List.mem_reverse.1 ((List.dropWhile_sublist _).subset hd)
      exact hall d (List.mem_cons_of_mem c hmem)

/-- A number is none of the words that stand for themselves. -/
theorem constantLiteral_of_isNumeral {text : String} (h : isNumeral text = true) (negative : Bool) :
    constantLiteral negative text = if negative then .unary .neg (.int text) else .int text := by
  have hall : ∀ word ∈ CSharp.literalWords, isNumeral word = false := by decide
  have hne : ∀ word ∈ CSharp.literalWords, text ≠ word := by
    rintro word hw rfl
    rw [hall _ hw] at h
    cases h
  rw [constantLiteral, if_neg (hne _ (by decide)), if_neg (hne _ (by decide)),
    if_neg (hne _ (by decide))]

/-! ## Trees are read back -/

theorem patternTrees_ne_nil {items : List Python.Pattern} (hn : items ≠ []) :
    patternTrees items ≠ [] := by
  simpa [patternTrees_eq_map] using hn

theorem forall₂_patternTrees {items : List Python.Pattern}
    (h : ∀ item ∈ items, denoted (patternTree item) = some item.normal) :
    List.Forall₂ (fun t p => denoted t = some p) (patternTrees items)
      (Python.Pattern.normals items) := by
  induction items with
  | nil => exact .nil
  | cons item rest ih =>
    exact .cons (h item List.mem_cons_self) (ih fun other ho => h other (List.mem_cons_of_mem _ ho))

theorem denotedProperties_propertyTrees {keywords : List (String × Python.Pattern)}
    (hk : ∀ keyword ∈ keywords, isSourceName keyword.1 = true)
    (h : ∀ keyword ∈ keywords, denoted (patternTree keyword.2) = some keyword.2.normal) :
    denotedProperties (propertyTrees keywords) = some (Python.Pattern.normalKeywords keywords) := by
  induction keywords with
  | nil => rw [propertyTrees, denotedProperties, Python.Pattern.normalKeywords]
  | cons keyword rest ih =>
    have hname : bare (escapeIdentifier keyword.1) = keyword.1 :=
      bare_escapeIdentifier (hk _ List.mem_cons_self)
    have hrest := ih (fun other ho => hk other (List.mem_cons_of_mem _ ho))
      (fun other ho => h other (List.mem_cons_of_mem _ ho))
    rw [propertyTrees, denotedProperties, h keyword List.mem_cons_self, hrest, hname]
    rfl

theorem map_bare_escapeIdentifier {names : List String}
    (h : ∀ name ∈ names, isSourceName name = true) :
    (names.map escapeIdentifier).map bare = names := by
  rw [List.map_map]
  exact (List.map_congr_left fun name hn => bare_escapeIdentifier (h name hn)).trans
    (List.map_id names)

/-- The tree of a pattern says the pattern itself, apart from what C# does not tell apart. -/
theorem denoted_patternTree {inSequence : Bool} {p : Python.Pattern}
    (h : PatternForm inSequence p) : denoted (patternTree p) = some p.normal := by
  induction h with
  | wildcard => rw [patternTree, denoted]; rfl
  | capture _ h => rw [patternTree, denoted, bare_escapeIdentifier h]; rfl
  | int _ h =>
    rw [patternTree, literalTree, denoted, constantLiteral_of_isNumeral (isNumeral_intLiteral h)]
    rfl
  | negative _ h =>
    rw [patternTree, literalTree, denoted, constantLiteral_of_isNumeral (isNumeral_intLiteral h)]
    rfl
  | bool _ value => cases value <;> rfl
  | none => rfl
  | @value _ path _ h =>
    rw [patternTree, denoted, map_bare_escapeIdentifier h, join_pieces]
    rfl
  | sequence _ _ ih =>
    rw [patternTree, denoted, denotedAll_eq (forall₂_patternTrees ih)]
    rfl
  | @star name h =>
    cases name with
    | none => rfl
    | some id =>
      rw [patternTree, Option.map_some, denoted, bare_escapeIdentifier (h id rfl)]
      rfl
  | @classPattern _ cls _ _ hc _ _ hk _ ihp ihv =>
    have hcls : (Text.pieces '.' cls).map bare = Text.pieces '.' cls :=
      (List.map_congr_left fun segment hs => bare_of_isSourceName (hc segment hs)).trans
        (List.map_id _)
    rw [patternTree, denoted, denotedAll_eq (forall₂_patternTrees ihp),
      denotedProperties_propertyTrees hk ihv, hcls, join_pieces]
    rfl
  | either _ hn _ ih =>
    rw [patternTree, denoted_joined (patternTrees_ne_nil hn) (forall₂_patternTrees ih)]
    rfl
  | @asName _ p name h hname ih =>
    have hbare := bare_escapeIdentifier hname
    by_cases hw : p = .wildcard
    · subst hw
      rw [patternTree, namedTree, denoted, hbare]
      rfl
    · rw [patternTree_asName hw, denoted, ih, hbare]
      rfl

end PythonToCSharp.Lowering
