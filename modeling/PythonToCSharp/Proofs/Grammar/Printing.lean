import Mathlib.Data.List.Forall2
import PythonToCSharp.Proofs.Grammar.Derivation

/-!
The text of an operator expression reads back as its tree, at every level that a place may ask for.

`Reads` says of a text that it falls into tokens of which the grammar makes the tree. There is one
lemma for each way in which a text is put together, and one induction that follows the tree.
-/

namespace PythonToCSharp.CSharp

/-! ## Names, literals and marks -/

/-- Whether a text is read as one name: an identifier that is not reserved, or one behind an at
sign. -/
def isName (text : String) : Bool :=
  match text.toList with
  | '@' :: word => isIdentifier word
  | word => isIdentifier word && !keywords.contains text

/-- Whether a text stands for a variable: a name, or `this`. -/
def isVariable (text : String) : Bool :=
  isName text || text == "this"

theorem isWordChar_of_isNumberChar {c : Char} (h : isNumberChar c = true) :
    isWordChar c = true := by
  simp only [isNumberChar, Bool.or_eq_true] at h
  rcases h with h | h
  · simp [isWordChar, Char.isAlphanum, h]
  · simp [isWordChar, h]

theorem isWordChar_of_isIdentifier {word : List Char} (h : isIdentifier word = true) :
    ∀ c ∈ word, isWordChar c = true := by
  cases word with
  | nil => cases h
  | cons c rest =>
    simp only [isIdentifier, Bool.and_eq_true, List.all_eq_true] at h
    intro d hd
    rcases List.mem_cons.1 hd with rfl | hd
    · exact h.1.1
    · exact h.2 d hd

theorem isNumberChar_of_isDecimal {word : List Char} (h : isDecimal word = true) :
    ∀ c ∈ word, isNumberChar c = true := by
  cases word with
  | nil => cases h
  | cons c rest =>
    simp only [isDecimal, Bool.and_eq_true, List.all_eq_true] at h
    intro d hd
    rcases List.mem_cons.1 hd with rfl | hd
    · simp [isNumberChar, h.1]
    · exact h.2 d hd

theorem isWordChar_of_isDecimal {word : List Char} (h : isDecimal word = true) :
    ∀ c ∈ word, isWordChar c = true :=
  fun c hc => isWordChar_of_isNumberChar (isNumberChar_of_isDecimal h c hc)

theorem isDecimal_eq_false {word : List Char} (h : isIdentifier word = true) :
    isDecimal word = false := by
  cases word with
  | nil => rfl
  | cons c rest =>
    simp only [isIdentifier, Bool.and_eq_true, Bool.not_eq_true'] at h
    simp [isDecimal, h.1.2]

theorem spells_word {text : String} {token : Token} (hn : text.toList ≠ [])
    (hw : ∀ c ∈ text.toList, isWordChar c = true) (ht : wordToken text.toList = some token) :
    Spells text.toList [token] := by
  intro rest hb
  rw [tokenize_word hn hw hb ht]
  rfl

/-- A name that is no reserved word is not one of the words with a meaning of their own. -/
theorem wordToken_name {text : String} (hi : isIdentifier text.toList = true)
    (hk : keywords.contains text = false) : wordToken text.toList = some (.name text) := by
  have hl : literalWords.contains text = false := by
    cases h : literalWords.contains text with
    | false => rfl
    | true =>
      have hall : ∀ word ∈ literalWords, keywords.contains word = true := by decide
      rw [hall text (by simpa using h)] at hk
      cases hk
  have hthis : text ≠ "this" := by
    rintro rfl
    exact absurd hk (by decide)
  simp [wordToken, isDecimal_eq_false hi, hl, hthis, hi, hk, -List.contains_eq_mem]

theorem spells_name {text : String} (h : isName text = true) : Spells text.toList [.name text] := by
  unfold isName at h
  split at h
  · rename_i word htext
    intro rest hb
    have hback : String.ofList ('@' :: word) = text := by rw [← htext, String.ofList_toList]
    rw [htext, List.cons_append, tokenize_verbatim h (isWordChar_of_isIdentifier h) hb, hback]
    rfl
  · simp only [Bool.and_eq_true, Bool.not_eq_true'] at h
    refine spells_word ?_ (isWordChar_of_isIdentifier h.1) (wordToken_name h.1 h.2)
    intro hnil
    rw [hnil] at h
    cases h.1

theorem spells_variable {text : String} (h : isVariable text = true) :
    Spells text.toList [.name text] := by
  simp only [isVariable, Bool.or_eq_true, beq_iff_eq] at h
  rcases h with h | rfl
  · exact spells_name h
  · exact spells_word (by decide) (List.all_eq_true.1 (by decide)) (by decide)

/-- A symbol between blanks. -/
theorem divides_operator (symbol : List Char) (h : isSymbol symbol = true) :
    Divides (' ' :: (symbol ++ [' '])) [.symbol (String.ofList symbol)] where
  boundary _ := .cons (by decide) _
  splits rest := by
    rw [List.cons_append, tokenize_blank, List.append_assoc]
    unfold isSymbol at h
    split at h
    · rename_i c
      have hj : joins c (' ' :: rest).head? = false := by
        cases hb : symbolPairs.contains (c, ' ') with
        | false => exact hb
        | true =>
          have hall : ∀ p ∈ symbolPairs, p.2 ≠ ' ' := by decide
          exact absurd rfl (hall (c, ' ') (by simpa using hb))
      rw [List.singleton_append, List.singleton_append, tokenize_symbol h hj, tokenize_blank]
      rfl
    · rw [List.cons_append, List.cons_append, tokenize_pair h, List.nil_append,
        List.singleton_append, tokenize_blank]
      rfl
    · cases h

/-- A symbol of two operands as it is written, between blanks. -/
theorem divides_symbol (op : BinaryOp) :
    Divides (' ' :: (op.symbol.toList ++ [' '])) [.symbol op.symbol] := by
  have hsym : isSymbol op.symbol.toList = true := by cases op <;> decide
  have h := divides_operator op.symbol.toList hsym
  rwa [String.ofList_toList] at h

/-- The marks that make a longer symbol with no character. -/
def loneMarks : List Char := "()[].,".toList

theorem divides_mark {c : Char} (h : c ∈ loneMarks) :
    Divides [c] [.symbol (String.ofList [c])] where
  boundary rest := by
    have hall : ∀ d ∈ loneMarks, isWordChar d = false := List.all_iff_forall_prop.1 (by decide)
    exact .cons (hall c h) _
  splits rest := by
    have hall : ∀ d ∈ loneMarks, symbolChars.contains d = true ∧
        symbolPairs.all (fun p => p.1 != d) = true :=
      List.all_iff_forall_prop.1 (by decide)
    obtain ⟨hc, hp⟩ := hall c h
    have hj : joins c rest.head? = false := by
      cases rest with
      | nil => rfl
      | cons d rest =>
        cases hb : symbolPairs.contains (c, d) with
        | false => exact hb
        | true => simpa using List.all_eq_true.1 hp (c, d) (by simpa using hb)
    rw [List.singleton_append, tokenize_symbol hc hj]
    rfl

theorem divides_comma : Divides ", ".toList [.symbol ","] where
  boundary _ := .cons (by decide) _
  splits rest := by
    show tokenize ([','] ++ ' ' :: rest) = _
    rw [(divides_mark (c := ',') (by decide)).splits, tokenize_blank]

/-! ## Texts that read as a tree -/

/-- The characters that an expression may begin with, apart from those of words. -/
def openingMarks : List Char := "@(-+~!".toList

/-- The text begins as an expression does. -/
def Opens (text : List Char) : Prop :=
  ∃ c rest, text = c :: rest ∧ (isWordChar c = true ∨ c ∈ openingMarks)

/-- The text is one of an expression of at least the level, with the given tree. -/
structure Reads (level : Level) (text : String) (tree : Expr) : Prop where
  opens : Opens text.toList
  spells : ∃ tokens, Spells text.toList tokens ∧ Derives level tokens tree

theorem Opens.append {text : List Char} (h : Opens text) (rest : List Char) :
    Opens (text ++ rest) := by
  obtain ⟨c, tail, rfl, hc⟩ := h
  exact ⟨c, tail ++ rest, rfl, hc⟩

theorem Opens.of_word {text : List Char} (hn : text ≠ []) (hw : ∀ c ∈ text, isWordChar c = true) :
    Opens text := by
  obtain ⟨c, rest, rfl⟩ := List.exists_cons_of_ne_nil hn
  exact ⟨c, rest, rfl, .inl (hw c List.mem_cons_self)⟩

theorem Opens.of_isName {text : String} (h : isName text = true) : Opens text.toList := by
  unfold isName at h
  split at h
  · rename_i word htext
    exact ⟨'@', word, htext, .inr (by decide)⟩
  · simp only [Bool.and_eq_true] at h
    refine .of_word ?_ (isWordChar_of_isIdentifier h.1)
    intro hnil
    rw [hnil] at h
    cases h.1

theorem Opens.of_isVariable {text : String} (h : isVariable text = true) : Opens text.toList := by
  simp only [isVariable, Bool.or_eq_true, beq_iff_eq] at h
  rcases h with h | rfl
  · exact .of_isName h
  · exact ⟨'t', _, rfl, .inl (by decide)⟩

/-- An operator with one operand stays apart from the operand, unless both are the same sign. -/
theorem tokenize_unary {op : UnaryOp} {text : List Char} (ho : Opens text)
    (hs : ¬(op.isSign = true ∧ text.head? = some op.symbol)) (rest : List Char) :
    tokenize (op.symbol :: (text ++ rest)) =
      (tokenize (text ++ rest)).map (.symbol op.symbol.toString :: ·) := by
  obtain ⟨c, tail, rfl, hc⟩ := ho
  have hsym : symbolChars.contains op.symbol = true := by cases op <;> decide
  refine tokenize_symbol hsym ?_
  cases hb : symbolPairs.contains (op.symbol, c) with
  | false => exact hb
  | true =>
    -- the only pairs that begin so are two signs, and the inequality, which no operand begins
    have hall :
        ∀ p ∈ symbolPairs, p.1 = op.symbol → (op.isSign = true ∧ p.2 = op.symbol) ∨ p.2 = '=' := by
      cases op <;> decide
    rcases hall (op.symbol, c) (by simpa using hb) rfl with ⟨hsign, heq⟩ | heq
    · exact absurd ⟨hsign, congrArg some heq⟩ hs
    · have hne : ¬(isWordChar '=' = true ∨ '=' ∈ openingMarks) := by decide
      exact absurd (heq ▸ hc) hne

/-- An expression may stand where a looser one is asked for. -/
theorem Derives.of_le {least level : Level} {ts : List Token} {e : Expr} (h : Derives level ts e)
    (hl : least ≤ level) : Derives least ts e := by
  obtain ⟨n, hn⟩ := Nat.exists_eq_add_of_le (show least.rank ≤ level.rank from hl)
  induction n generalizing least with
  | zero =>
    rw [Level.rank_injective hn] at h
    exact h
  | succ n ih =>
    have hp : least ≠ .primary := by
      rintro rfl
      have hmax := level.rank_le_primary
      omega
    have ht : least.tighter.rank = least.rank + 1 := Level.rank_tighter hp
    refine .loosen least (ih ?_ (by omega))
    show least.tighter.rank ≤ level.rank
    omega

namespace Reads

variable {level : Level} {text : String} {tree : Expr}

theorem of_le {least : Level} (h : Reads level text tree) (hl : least ≤ level) :
    Reads least text tree := by
  obtain ⟨ho, tokens, hs, hd⟩ := h
  exact ⟨ho, tokens, hs, hd.of_le hl⟩

/-- One tree at most reads so, and this one does. -/
theorem parses_iff (h : Reads level text tree) (other : Expr) :
    Parses level text other ↔ other = tree := by
  obtain ⟨-, tokens, hs, hd⟩ := h
  constructor
  · rintro ⟨tokens', ht, hd'⟩
    rw [hs.tokenize_eq] at ht
    cases ht
    exact hd'.unique hd
  · rintro rfl
    exact ⟨tokens, hs.tokenize_eq, hd⟩

theorem of_chars {chars : List Char} {tokens : List Token} (ht : text.toList = chars)
    (ho : Opens chars)
    (hs : Spells chars tokens) (hd : Derives level tokens tree) : Reads level text tree := by
  subst ht
  exact ⟨ho, tokens, hs, hd⟩

theorem word {token : Token} (hn : text.toList ≠ []) (hw : ∀ c ∈ text.toList, isWordChar c = true)
    (ht : wordToken text.toList = some token) (hd : Derives .primary [token] tree) :
    Reads .primary text tree :=
  ⟨.of_word hn hw, _, spells_word hn hw ht, hd⟩

theorem name (h : isVariable text = true) : Reads .primary text (.name text) :=
  ⟨.of_isVariable h, _, spells_variable h, .name text⟩

theorem decimal (h : isDecimal text.toList = true) : Reads .primary text (.literal text) := by
  refine .word ?_ (isWordChar_of_isDecimal h) (by simp [wordToken, h]) (.literal text)
  intro hnil
  rw [hnil] at h
  cases h

theorem literalWord (h : text ∈ literalWords) : Reads .primary text (.literal text) := by
  have hall : ∀ word ∈ literalWords, word.toList ≠ [] ∧ word.toList.all isWordChar = true ∧
      wordToken word.toList = some (.literal word) := by decide
  obtain ⟨hn, hw, ht⟩ := hall text h
  exact .word hn (List.all_eq_true.1 hw) ht (.literal text)

theorem parens (h : Reads .lowest text tree) : Reads .primary ("(" ++ text ++ ")") tree := by
  obtain ⟨-, tokens, hs, hd⟩ := h
  have hopen : Divides ['('] [.symbol "("] := divides_mark (by decide)
  have hclose : Divides [')'] [.symbol ")"] := divides_mark (by decide)
  have htext : ("(" ++ text ++ ")").toList = ['('] ++ (text.toList ++ [')']) := by simp
  exact .of_chars htext ⟨'(', _, rfl,
    .inr (by decide)⟩ (.prepend hopen (hs.followed hclose)) (.parens hd)

theorem placed (h : Reads level text tree) (least : Level) :
    Reads least (CSharp.placed least level text) tree := by
  by_cases hl : level < least
  · have hp : CSharp.placed least level text = "(" ++ text ++ ")" := by
      simp [CSharp.placed, enclose, hl]
    rw [hp]
    have hlow : Reads .lowest text tree := h.of_le (Nat.zero_le _)
    exact hlow.parens.of_le least.le_primary
  · have hp : CSharp.placed least level text = text := by simp [CSharp.placed, enclose, hl]
    rw [hp]
    exact h.of_le (Nat.le_of_not_lt hl)

theorem member {field : String} (h : Reads .primary text tree) (hf : isName field = true) :
    Reads .primary (text ++ "." ++ field) (.member tree field) := by
  obtain ⟨ho, tokens, hs, hd⟩ := h
  have hdot : Divides ['.'] [.symbol "."] := divides_mark (by decide)
  have htext : (text ++ "." ++ field).toList = text.toList ++ (['.'] ++ field.toList) := by simp
  exact .of_chars htext (ho.append _) (hs.divided hdot (spells_name hf)) (.member hd field)

theorem binary {left right : String} {l r : Expr} (op : BinaryOp) (hl : Reads op.level left l)
    (hr : Reads op.level.tighter right r) :
    Reads op.level (left ++ " " ++ op.symbol ++ " " ++ right) (.binary op l r) := by
  obtain ⟨ho, ls, hls, hld⟩ := hl
  obtain ⟨-, rs, hrs, hrd⟩ := hr
  have htext : (left ++ " " ++ op.symbol ++ " " ++ right).toList =
      left.toList ++ ((' ' :: (op.symbol.toList ++ [' '])) ++ right.toList) := by simp
  exact .of_chars htext (ho.append _) (hls.divided (divides_symbol op) hrs) (.binary op hld hrd)

theorem unary (op : UnaryOp) (h : Reads .unary text tree) :
    Reads .unary (signed op text) (.unary op tree) := by
  -- behind a sign, an operand that begins with the same sign is put between parentheses
  have hclear : ∃ operand, signed op text = op.symbol.toString ++ operand ∧
      Reads .unary operand tree ∧ ¬(op.isSign = true ∧ operand.toList.head? = some op.symbol) := by
    by_cases hc : op.isSign = true ∧ text.toList.head? = some op.symbol
    · refine ⟨"(" ++ text ++ ")", ?_, ?_, ?_⟩
      · simp [signed, enclose, hc]
      · have hlow : Reads .lowest text tree := h.of_le (Nat.zero_le _)
        exact hlow.parens.of_le (by decide)
      · rintro ⟨-, hhead⟩
        have hparen : op.symbol = '(' := by simpa using hhead.symm
        cases op <;> cases hparen
    · exact ⟨text, by simp [signed, enclose, hc], h, hc⟩
  obtain ⟨operand, heq, ⟨ho, tokens, hs, hd⟩, hc⟩ := hclear
  have htext : (signed op text).toList = op.symbol :: operand.toList := by simp [heq]
  refine .of_chars htext ⟨op.symbol, _, rfl, .inr (by cases op <;> decide)⟩ ?_ (.unary op hd)
  intro rest hb
  rw [List.cons_append, tokenize_unary ho hc rest, hs rest hb, Option.map_map]
  rfl

theorem conditional {test body orelse : String} {t b o : Expr} (ht : Reads .or test t)
    (hb : Reads .conditional body b) (ho : Reads .conditional orelse o) :
    Reads .conditional (test ++ " ? " ++ body ++ " : " ++ orelse) (.conditional t b o) := by
  obtain ⟨hopen, ts, hts, htd⟩ := ht
  obtain ⟨-, bs, hbs, hbd⟩ := hb
  obtain ⟨-, os, hos, hod⟩ := ho
  have hq : Divides " ? ".toList [.symbol "?"] := divides_operator ['?'] (by decide)
  have hc : Divides " : ".toList [.symbol ":"] := divides_operator [':'] (by decide)
  have htext : (test ++ " ? " ++ body ++ " : " ++ orelse).toList =
      test.toList ++ (" ? ".toList ++ (body.toList ++ (" : ".toList ++ orelse.toList))) := by simp
  exact .of_chars htext (hopen.append _) (hts.divided hq (hbs.divided hc hos))
    (.conditional htd (hbd.of_le (by decide)) hod)

theorem assign {target value : String} {v : Expr} (ht : isVariable target = true)
    (hv : Reads .lowest value v) : Reads .lowest (target ++ " = " ++ value) (.assign target v) := by
  obtain ⟨-, vs, hvs, hvd⟩ := hv
  have heq : Divides " = ".toList [.symbol "="] := divides_operator ['='] (by decide)
  have htext : (target ++ " = " ++ value).toList = target.toList ++
      (" = ".toList ++ value.toList) := by
    simp
  exact .of_chars htext ((Opens.of_isVariable ht).append _) ((spells_variable ht).divided heq hvs)
    (.assign target hvd)

/-- Texts with commas between them read as their trees, if there are any. -/
theorem join_all {texts : List String} {trees : List Expr}
    (h : List.Forall₂ (Reads .lowest) texts trees) (hn : trees ≠ []) :
    ∃ tokens, Spells (Text.join ", " texts).toList tokens ∧ DerivesAll tokens trees := by
  induction h with
  | nil => exact absurd rfl hn
  | @cons text tree texts trees hfirst hrest ih =>
    obtain ⟨-, ts, hs, hd⟩ := hfirst
    cases hrest with
    | nil => exact ⟨ts, hs, .last hd⟩
    | @cons text' tree' texts trees hsecond hrest =>
      obtain ⟨us, hus, hud⟩ := ih (List.cons_ne_nil _ _)
      have htext : (Text.join ", " (text :: text' :: texts)).toList =
          text.toList ++ (", ".toList ++ (Text.join ", " (text' :: texts)).toList) := by
        simp [Text.join]
      refine ⟨_, ?_, .more hd hud⟩
      rw [htext]
      exact hs.divided divides_comma hus

theorem index {texts : List String} {trees : List Expr} (h : Reads .primary text tree)
    (hall : List.Forall₂ (Reads .lowest) texts trees) (hn : trees ≠ []) :
    Reads .primary (text ++ "[" ++ Text.join ", " texts ++ "]") (.index tree trees) := by
  obtain ⟨ho, ts, hs, hd⟩ := h
  obtain ⟨us, hus, hud⟩ := join_all hall hn
  have hopen : Divides ['['] [.symbol "["] := divides_mark (by decide)
  have hclose : Divides [']'] [.symbol "]"] := divides_mark (by decide)
  have htext : (text ++ "[" ++ Text.join ", " texts ++ "]").toList =
      text.toList ++ (['['] ++ ((Text.join ", " texts).toList ++ [']'])) := by simp
  exact .of_chars htext (ho.append _) (hs.divided hopen (hus.followed hclose)) (.index hd hud)

theorem call {texts : List String} {trees : List Expr} (h : Reads .primary text tree)
    (hall : List.Forall₂ (Reads .lowest) texts trees) :
    Reads .primary (text ++ "(" ++ Text.join ", " texts ++ ")")
      (.call tree (trees.map .positional)) := by
  obtain ⟨ho, ts, hs, hd⟩ := h
  have hopen : Divides ['('] [.symbol "("] := divides_mark (by decide)
  have hclose : Divides [')'] [.symbol ")"] := divides_mark (by decide)
  have htext : (text ++ "(" ++ Text.join ", " texts ++ ")").toList =
      text.toList ++ (['('] ++ ((Text.join ", " texts).toList ++ [')'])) := by simp
  cases trees with
  | nil =>
    cases hall
    exact .of_chars htext (ho.append _) (hs.divided hopen hclose.spells) (.invoke hd)
  | cons first rest =>
    obtain ⟨us, hus, hud⟩ := join_all hall (List.cons_ne_nil _ _)
    exact .of_chars htext (ho.append _) (hs.divided hopen (hus.followed hclose)) (.call hd hud)

end Reads

/-! ## Operator expressions -/

/-- The trees of operator expressions, with names and literals that are read as such. -/
inductive OperatorTree : Expr → Prop where
  | name {text : String} (h : isVariable text = true) : OperatorTree (.name text)
  | decimal {text : String} (h : isDecimal text.toList = true) : OperatorTree (.literal text)
  | literalWord {text : String} (h : text ∈ literalWords) : OperatorTree (.literal text)
  | binary (op : BinaryOp) {left right : Expr} (hl : OperatorTree left) (hr : OperatorTree right) :
      OperatorTree (.binary op left right)
  | unary (op : UnaryOp) {operand : Expr} (h : OperatorTree operand) :
      OperatorTree (.unary op operand)
  | conditional {test body orelse : Expr} (ht : OperatorTree test) (hb : OperatorTree body)
      (ho : OperatorTree orelse) : OperatorTree (.conditional test body orelse)
  | assign {target : String} {value : Expr} (ht : isVariable target = true)
      (hv : OperatorTree value) : OperatorTree (.assign target value)
  | member {value : Expr} {field : String} (h : OperatorTree value) (hf : isName field = true) :
      OperatorTree (.member value field)
  | index {value : Expr} {items : List Expr} (h : OperatorTree value) (hn : items ≠ [])
      (hi : ∀ item ∈ items, OperatorTree item) : OperatorTree (.index value items)
  | call {func : Expr} (h : OperatorTree func) (items : List Expr)
      (hi : ∀ item ∈ items, OperatorTree item) : OperatorTree (.call func (items.map .positional))

namespace Expr

theorem forall₂_texts {items : List Expr} (h : ∀ item ∈ items, Reads item.level item.text item) :
    List.Forall₂ (Reads .lowest) (texts items) items := by
  induction items with
  | nil => exact .nil
  | cons item rest ih =>
    rw [texts]
    refine .cons ((h item List.mem_cons_self).of_le (Nat.zero_le _)) (ih ?_)
    intro other ho
    exact h other (List.mem_cons_of_mem item ho)

theorem argumentTexts_positional (items : List Expr) :
    argumentTexts (items.map .positional) = texts items := by
  induction items with
  | nil => rfl
  | cons item rest ih => rw [List.map_cons, argumentTexts, texts, ih]

end Expr

/-- The text of an operator expression reads as its tree, at its own level. -/
theorem OperatorTree.reads {e : Expr} (h : OperatorTree e) : Reads e.level e.text e := by
  induction h with
  | name h => exact .name h
  | decimal h => exact .decimal h
  | literalWord h => exact .literalWord h
  | binary op _ _ ihl ihr => exact .binary op (ihl.placed _) (ihr.placed _)
  | unary op _ ih => exact .unary op (ih.placed _)
  | conditional _ _ _ iht ihb iho => exact .conditional (iht.placed _) (ihb.placed _) (iho.placed _)
  | assign ht _ ihv => exact .assign ht (ihv.of_le (Nat.zero_le _))
  | member _ hf ih => exact .member (ih.placed _) hf
  | index _ hn _ ih ihi => exact .index (ih.placed _) (Expr.forall₂_texts ihi) hn
  | call _ _ _ ih ihi =>
    rw [Expr.text, Expr.argumentTexts_positional]
    exact .call (ih.placed _) (Expr.forall₂_texts ihi)

end PythonToCSharp.CSharp
