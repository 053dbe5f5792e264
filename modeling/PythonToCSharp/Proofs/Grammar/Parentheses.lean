import PythonToCSharp.Proofs.Grammar.Printing

/-!
The text of an operator expression has no parentheses to spare: a text that is laid out in the same
way and reads as the same tree has at least as many of them.

The grammar alone does not say so. Of the tokens of `-(-x)` the parentheses could go, but in the
text the two signs would then be one token. So the texts that are compared are `Tidy`: a sign before
its operand touches it. The tokens of such a text are `Clear`: no sign before its operand comes
before the same sign.
-/

namespace PythonToCSharp.CSharp

/-! ## Texts and their tokens, one at a time -/

/-- A text that falls into tokens, one after the other. -/
inductive Lexes : List Char → List Token → Prop where
  | nil : Lexes [] []
  | blank {text : List Char} {tokens : List Token} (h : Lexes text tokens) :
      Lexes (' ' :: text) tokens
  | word {word text : List Char} {token : Token} {tokens : List Token} (hn : word ≠ [])
      (hw : ∀ c ∈ word, isWordChar c = true) (ht : wordToken word = some token)
        (h : Lexes text tokens) :
      Lexes (word ++ text) (token :: tokens)
  | verbatim {word text : List Char} {tokens : List Token} (hi : isIdentifier word = true)
      (hw : ∀ c ∈ word, isWordChar c = true) (h : Lexes text tokens) :
      Lexes ('@' :: (word ++ text)) (.name (String.ofList ('@' :: word)) :: tokens)
  | symbol {c : Char} {text : List Char} {tokens : List Token} (hc : symbolChars.contains c = true)
      (hj : joins c text.head? = false) (h : Lexes text tokens) :
      Lexes (c :: text) (.symbol (String.ofList [c]) :: tokens)
  | pair {c d : Char} {text : List Char} {tokens : List Token}
      (hp : symbolPairs.contains (c, d) = true)
      (h : Lexes text tokens) : Lexes (c :: d :: text) (.symbol (String.ofList [c, d]) :: tokens)

theorem lexes_of_tokenize {text : List Char} {tokens : List Token}
    (h : tokenize text = some tokens) : Lexes text tokens := by
  fun_induction tokenize text generalizing tokens with
  | case1 =>
    cases h
    exact .nil
  | case2 rest ih => exact .blank (ih h)
  | case3 c rest hblank hword ih =>
    obtain ⟨token, ht, h⟩ := Option.bind_eq_some_iff.1 h
    obtain ⟨others, ho, rfl⟩ := Option.map_eq_some_iff.1 h
    have hw : ∀ d ∈ c :: rest.takeWhile isWordChar, isWordChar d = true := by
      intro d hd
      rcases List.mem_cons.1 hd with rfl | hd
      · exact hword
      · exact List.all_eq_true.1 List.all_takeWhile d hd
    have hlexes := Lexes.word (List.cons_ne_nil _ _) hw ht (ih ho)
    rwa [List.cons_append, List.takeWhile_append_dropWhile] at hlexes
  | case4 rest hblank hword ih =>
    obtain ⟨token, ht, h⟩ := Option.bind_eq_some_iff.1 h
    obtain ⟨others, ho, rfl⟩ := Option.map_eq_some_iff.1 h
    unfold verbatimToken at ht
    split at ht
    · rename_i hi
      cases ht
      have hlexes := Lexes.verbatim hi (List.all_eq_true.1 List.all_takeWhile) (ih ho)
      rwa [List.takeWhile_append_dropWhile] at hlexes
    · cases ht
  | case5 c rest hblank hword hat hc more =>
    rename_i ih
    obtain ⟨others, ho, rfl⟩ := Option.map_eq_some_iff.1 h
    cases hj : joins c rest.head? with
    | false =>
      have hmore : more = 0 := by simp [more, hj]
      rw [hmore] at ih ho ⊢
      exact .symbol hc hj (ih ho)
    | true =>
      have hmore : more = 1 := by simp [more, hj]
      rw [hmore] at ih ho ⊢
      cases rest with
      | nil => cases hj
      | cons d rest => exact .pair hj (ih ho)
  | case6 => cases h

/-- A word is no symbol. -/
theorem ne_symbol_of_wordToken {word : List Char} {token : Token} (h : wordToken word = some token)
    (text : String) : token ≠ .symbol text := by
  rintro rfl
  simp only [wordToken] at h
  split at h
  · cases h
  · split at h
    · cases h
    · split at h
      · cases h
      · split at h <;> cases h

theorem symbol_ofList_ne {chars : List Char} {text : String} (h : chars ≠ text.toList) :
    Token.symbol (String.ofList chars) ≠ .symbol text := by
  intro heq
  refine h ?_
  rw [← Token.symbol.inj heq, String.toList_ofList]

theorem count_open_word {word : List Char} (hw : ∀ c ∈ word, isWordChar c = true) :
    word.count '(' = 0 := by
  refine List.count_eq_zero.2 ?_
  intro hm
  exact absurd (hw _ hm) (by decide)

/-- A text has as many opening parentheses as its tokens. -/
theorem Lexes.count_open {text : List Char} {tokens : List Token} (h : Lexes text tokens) :
    tokens.count (.symbol "(") = text.count '(' := by
  induction h with
  | nil => rfl
  | blank _ ih => simpa using ih
  | word hn hw ht _ ih =>
    rw [List.count_cons_of_ne (ne_symbol_of_wordToken ht _), List.count_append, count_open_word hw,
      ih, Nat.zero_add]
  | verbatim hi hw _ ih => simp [count_open_word hw, ih]
  | @symbol c text tokens hc hj _ ih =>
    by_cases hopen : c = '('
    · subst hopen
      simp [ih]
    · rw [List.count_cons_of_ne
        (symbol_ofList_ne (by simp [hopen])), List.count_cons_of_ne hopen, ih]
  | @pair c d text tokens hp _ ih =>
    have hall : ∀ p ∈ symbolPairs, p.1 ≠ '(' ∧ p.2 ≠ '(' := by decide
    obtain ⟨hc, hd⟩ := hall (c, d) (by simpa using hp)
    rw [List.count_cons_of_ne
      (symbol_ofList_ne (by simp)), List.count_cons_of_ne hc, List.count_cons_of_ne hd, ih]

/-! ## Signs before their operands -/

/-- Whether a token is a sign, which could stand before an operand or between two. -/
def Token.isSign : Token → Bool
  | .symbol text => text == "-" || text == "+"
  | _ => false

/-- Whether an operand may end with the token. -/
def Token.endsOperand : Token → Bool
  | .symbol text => text == ")" || text == "]"
  | _ => true

/-- No sign before its operand comes right before the same sign. `after` says whether an operand has
just ended, so that the next sign stands between two. -/
def Clear : Bool → List Token → Prop
  | _, [] => True
  | after, token :: rest =>
    (after = false → token.isSign = true → rest.head? ≠ some token) ∧ Clear token.endsOperand rest

theorem Clear.front {after : Bool} {front rest : List Token} (h : Clear after (front ++ rest)) :
    Clear after front := by
  induction front generalizing after with
  | nil => trivial
  | cons token front ih =>
    rw [List.cons_append] at h
    refine ⟨?_, ih h.2⟩
    intro ha hs hhead
    refine h.1 ha hs ?_
    rw [List.head?_append, hhead]
    rfl

theorem Clear.behind {after : Bool} {front rest : List Token} {token : Token}
    (h : Clear after (front ++ token :: rest)) : Clear token.endsOperand rest := by
  induction front generalizing after with
  | nil => exact h.2
  | cons first front ih => exact ih h.2

/-- Whether an operand may end with the character. -/
def endsOperand (c : Char) : Bool :=
  isWordChar c || c == ')' || c == ']'

/-- An opening parenthesis and a sign before its operand touch what follows, and parentheses open
before an operand and close behind one. `after` says whether an operand has just ended. -/
def Tidy : Bool → List Char → Prop
  | _, [] => True
  | after, c :: rest =>
    if c = ' ' then Tidy after rest
    else
      (c = '(' → after = false) ∧ (c = ')' → after = true) ∧
        (after = false → c = '(' ∨ c = '-' ∨ c = '+' → rest.head? ≠ some ' ') ∧
          Tidy (endsOperand c) rest

@[simp] theorem tidy_blank (after : Bool) (rest : List Char) :
    Tidy after (' ' :: rest) ↔ Tidy after rest := by
  rw [Tidy, if_pos rfl]

theorem tidy_cons {c : Char} (h : c ≠ ' ') (after : Bool) (rest : List Char) :
    Tidy after (c :: rest) ↔
      (c = '(' → after = false) ∧ (c = ')' → after = true) ∧
        (after = false → c = '(' ∨ c = '-' ∨ c = '+' → rest.head? ≠ some ' ') ∧
          Tidy (endsOperand c) rest := by
  rw [Tidy, if_neg h]

theorem tidy_open (after : Bool) (rest : List Char) :
    Tidy after ('(' :: rest) ↔ after = false ∧ rest.head? ≠ some ' ' ∧ Tidy false rest := by
  rw [tidy_cons (by decide)]
  constructor
  · rintro ⟨hopen, -, htouch, hrest⟩
    exact ⟨hopen rfl, htouch (hopen rfl) (.inl rfl), hrest⟩
  · rintro ⟨rfl, htouch, hrest⟩
    exact ⟨fun _ => rfl, fun h => absurd h (by decide), fun _ _ => htouch, hrest⟩

theorem tidy_close (after : Bool) (rest : List Char) :
    Tidy after (')' :: rest) ↔ after = true ∧ Tidy true rest := by
  rw [tidy_cons (by decide)]
  constructor
  · rintro ⟨-, hclose, -, hrest⟩
    exact ⟨hclose rfl, hrest⟩
  · rintro ⟨rfl, hrest⟩
    exact ⟨fun h => absurd h (by decide), fun _ => rfl, fun h => absurd h (by decide), hrest⟩

/-- An opening parenthesis may go. -/
theorem Tidy.erase_open {after : Bool} {front rest : List Char}
    (h : Tidy after (front ++ '(' :: rest)) : Tidy after (front ++ rest) := by
  induction front generalizing after with
  | nil =>
    obtain ⟨rfl, -, hrest⟩ := (tidy_open _ _).1 h
    exact hrest
  | cons c front ih =>
    rw [List.cons_append] at h ⊢
    by_cases hblank : c = ' '
    · subst hblank
      rw [tidy_blank] at h ⊢
      exact ih h
    · rw [tidy_cons hblank] at h ⊢
      obtain ⟨hopen, hclose, htouch, hrest⟩ := h
      refine ⟨hopen, hclose, ?_, ih hrest⟩
      intro ha hc
      cases front with
      | nil => exact ((tidy_open _ _).1 hrest).2.1
      | cons d front => exact htouch ha hc

/-- A closing parenthesis may go. -/
theorem Tidy.erase_close {after : Bool} {front rest : List Char}
    (h : Tidy after (front ++ ')' :: rest)) : Tidy after (front ++ rest) := by
  induction front generalizing after with
  | nil =>
    obtain ⟨rfl, hrest⟩ := (tidy_close _ _).1 h
    exact hrest
  | cons c front ih =>
    rw [List.cons_append] at h ⊢
    by_cases hblank : c = ' '
    · subst hblank
      rw [tidy_blank] at h ⊢
      exact ih h
    · rw [tidy_cons hblank] at h ⊢
      obtain ⟨hopen, hclose, htouch, hrest⟩ := h
      refine ⟨hopen, hclose, ?_, ih hrest⟩
      intro ha hc
      cases front with
      | nil =>
        -- a parenthesis does not close right behind one that opens, nor behind a sign
        have hends : endsOperand c = true := ((tidy_close _ _).1 hrest).1
        rcases hc with rfl | rfl | rfl <;> exact absurd hends (by decide)
      | cons d front => exact htouch ha hc

/-- Through the characters of a word, an operand has just ended. -/
theorem Tidy.behind_word {after : Bool} {word rest : List Char} (hn : word ≠ [])
    (hw : ∀ c ∈ word, isWordChar c = true) (h : Tidy after (word ++ rest)) : Tidy true rest := by
  induction word generalizing after with
  | nil => exact absurd rfl hn
  | cons c word ih =>
    have hc : isWordChar c = true := hw c List.mem_cons_self
    have hblank : c ≠ ' ' := by
      rintro rfl
      exact absurd hc (by decide)
    obtain ⟨-, -, -, hrest⟩ := (tidy_cons hblank _ _).1 h
    have hends : endsOperand c = true := by simp [endsOperand, hc]
    rw [hends] at hrest
    cases word with
    | nil => exact hrest
    | cons d word =>
        exact ih (List.cons_ne_nil d word) (fun e he => hw e (List.mem_cons_of_mem c he)) hrest

/-- A sign that comes first among the tokens is the first character, unless that is a blank. -/
theorem Lexes.head?_sign {text : List Char} {tokens : List Token} {sign : Char}
    (h : Lexes text tokens) (ht : tokens.head? = some (.symbol (String.ofList [sign]))) :
    text.head? = some ' ' ∨ text.head? = some sign := by
  cases h with
  | nil => cases ht
  | blank _ => exact .inl rfl
  | word hn hw hword _ => exact absurd (Option.some.inj ht) (ne_symbol_of_wordToken hword _)
  | verbatim hi hw _ => cases ht
  | symbol hc hj _ =>
    have hchars := congrArg String.toList (Token.symbol.inj (Option.some.inj ht))
    simp only [String.toList_ofList, List.cons.injEq, and_true] at hchars
    exact .inr (congrArg some hchars)
  | pair hp _ =>
    have hchars := congrArg String.toList (Token.symbol.inj (Option.some.inj ht))
    simp at hchars

/-- Of the symbols of one character, the two signs are signs, and those that close end an operand.
-/
theorem symbol_facts {c : Char} (h : symbolChars.contains c = true) :
    ((Token.symbol (String.ofList [c])).isSign = true → c = '-' ∨ c = '+') ∧
      (Token.symbol (String.ofList [c])).endsOperand = endsOperand c := by
  have hall :
      ∀ d ∈ symbolChars, ((Token.symbol (String.ofList [d])).isSign = true → d = '-' ∨ d = '+') ∧
      (Token.symbol (String.ofList [d])).endsOperand = endsOperand d :=
    List.all_iff_forall_prop.1 (by decide)
  exact hall c (by simpa using h)

/-- No symbol of two characters is a sign or ends an operand. -/
theorem pair_facts {c d : Char} (h : symbolPairs.contains (c, d) = true) :
    c ≠ ' ' ∧ d ≠ ' ' ∧ endsOperand d = false ∧ (Token.symbol (String.ofList [c, d])).isSign =
      false ∧ (Token.symbol (String.ofList [c, d])).endsOperand = false := by
  have hall : ∀ p ∈ symbolPairs, p.1 ≠ ' ' ∧ p.2 ≠ ' ' ∧ endsOperand p.2 = false ∧
      (Token.symbol (String.ofList [p.1, p.2])).isSign = false ∧
      (Token.symbol (String.ofList [p.1, p.2])).endsOperand = false :=
    List.all_iff_forall_prop.1 (by decide)
  exact hall (c, d) (by simpa using h)

/-- In the tokens of a tidy text no sign before its operand comes before the same sign: they would
be one token. -/
theorem Lexes.clear {text : List Char} {tokens : List Token} (h : Lexes text tokens) {after : Bool}
    (ht : Tidy after text) : Clear after tokens := by
  induction h generalizing after with
  | nil => trivial
  | blank _ ih => exact ih ((tidy_blank _ _).1 ht)
  | @word word text token tokens hn hw hword _ ih =>
    have hends : token.endsOperand = true ∧ token.isSign = false := by
      cases token with
      | symbol text => exact absurd rfl (ne_symbol_of_wordToken hword text)
      | name text => exact ⟨rfl, rfl⟩
      | literal text => exact ⟨rfl, rfl⟩
    refine ⟨fun _ hs => ?_, ?_⟩
    · rw [hends.2] at hs
      cases hs
    · rw [hends.1]
      exact ih (ht.behind_word hn hw)
  | @verbatim word text tokens hi hw _ ih =>
    have hn : word ≠ [] := by
      rintro rfl
      cases hi
    obtain ⟨-, -, -, hrest⟩ := (tidy_cons (by decide) _ _).1 ht
    refine ⟨?_, ih (hrest.behind_word hn hw)⟩
    intro _ hs
    cases hs
  | @symbol c text tokens hc hj hlexes ih =>
    obtain ⟨hblank, hword, -⟩ := of_mem_symbolChars hc
    obtain ⟨hsign, hends⟩ := symbol_facts hc
    obtain ⟨-, -, htouch, hrest⟩ := (tidy_cons hblank _ _).1 ht
    refine ⟨?_, ?_⟩
    · intro ha hs hhead
      rcases hlexes.head?_sign hhead with hspace | hsame
      · exact htouch ha (.inr (hsign hs)) hspace
      · rw [hsame] at hj
        rcases hsign hs with rfl | rfl <;> exact absurd hj (by decide)
    · rw [hends]
      exact ih hrest
  | @pair c d text tokens hp _ ih =>
    obtain ⟨hc, hd, hsecond, hsign, hends⟩ := pair_facts hp
    obtain ⟨-, -, -, hrest⟩ := (tidy_cons hc _ _).1 ht
    obtain ⟨-, -, -, hrest⟩ := (tidy_cons hd _ _).1 hrest
    refine ⟨?_, ?_⟩
    · intro _ hs
      rw [hsign] at hs
      cases hs
    · rw [hends, ← hsecond]
      exact ih hrest

/-! ## How many parentheses a tree needs -/

/-- The trees of operators over variables and decimal integers. -/
inductive NativeTree : Expr → Prop where
  | name {text : String} (h : isVariable text = true) : NativeTree (.name text)
  | decimal {text : String} (h : isDecimal text.toList = true) : NativeTree (.literal text)
  | binary (op : BinaryOp) {left right : Expr} (hl : NativeTree left) (hr : NativeTree right) :
      NativeTree (.binary op left right)
  | unary (op : UnaryOp) {operand : Expr} (h : NativeTree operand) : NativeTree (.unary op operand)
  | conditional {test body orelse : Expr} (ht : NativeTree test) (hb : NativeTree body)
      (ho : NativeTree orelse) : NativeTree (.conditional test body orelse)

theorem NativeTree.operatorTree {e : Expr} (h : NativeTree e) : OperatorTree e := by
  induction h with
  | name h => exact .name h
  | decimal h => exact .decimal h
  | binary op _ _ ihl ihr => exact .binary op ihl ihr
  | unary op _ ih => exact .unary op ih
  | conditional _ _ _ iht ihb iho => exact .conditional iht ihb iho

/-- Nothing in such a tree is looser than a conditional. -/
theorem NativeTree.conditional_le_level {e : Expr} (h : NativeTree e) :
    Level.conditional ≤ e.level := by
  cases h with
  | name _ | decimal _ => exact (by decide : Level.conditional ≤ .primary)
  | binary op _ _ =>
    show Level.conditional ≤ op.level
    cases op <;> decide
  | unary _ _ => exact (by decide : Level.conditional ≤ .unary)
  | conditional _ _ _ => exact Nat.le_refl _

/-- The opening parentheses in the text of an expression at a place that asks for a level. -/
def Expr.opens (least : Level) (e : Expr) : Nat :=
  (e.textAt least).toList.count '('

theorem count_enclose (needed : Bool) (text : String) :
    (enclose needed text).toList.count '(' = text.toList.count '(' + if needed then 1 else 0 := by
  cases needed <;> simp [enclose, Nat.add_comm]

theorem Expr.opens_eq (least : Level) (e : Expr) :
    e.opens least = e.text.toList.count '(' + if e.level < least then 1 else 0 := by
  rw [opens, textAt, placed, count_enclose]
  simp

/-- A looser place does not ask for more parentheses. -/
theorem Expr.opens_mono {loose tight : Level} (h : loose ≤ tight) (e : Expr) :
    e.opens loose ≤ e.opens tight := by
  have hl : e.level < loose → e.level < tight := fun hlt => Nat.lt_of_lt_of_le hlt h
  rw [opens_eq, opens_eq]
  by_cases hlt : e.level < loose
  · simp [hlt, hl hlt]
  · simp [hlt]

theorem Expr.opens_primary_le (e : Expr) : e.opens .primary ≤ e.opens .lowest + 1 := by
  rw [opens_eq, opens_eq]
  split <;> omega

theorem Expr.opens_binary (op : BinaryOp) (left right : Expr) :
    (Expr.binary op left right).opens op.level = left.opens op.level +
      right.opens op.level.tighter := by
  have hlevel : ¬(Expr.binary op left right).level < op.level := Nat.lt_irrefl _
  have hsymbol : op.symbol.toList.count '(' = 0 := by cases op <;> decide
  rw [opens_eq, if_neg hlevel, text]
  simp [opens, textAt, hsymbol, List.count_append]

theorem Expr.opens_conditional (test body orelse : Expr) :
    (Expr.conditional test body orelse).opens .conditional =
      test.opens .or + body.opens .conditional + orelse.opens .conditional := by
  have hlevel : ¬(Expr.conditional test body orelse).level < .conditional := Nat.lt_irrefl _
  rw [opens_eq, if_neg hlevel, text]
  simp [opens, textAt, List.count_append, Nat.add_assoc]

/-- Whether the operand of an operator with one operand would join its sign to it. -/
def Expr.clashes (op : UnaryOp) (operand : Expr) : Bool :=
  op.isSign && (operand.textAt .unary).toList.head? == some op.symbol

theorem Expr.opens_unary (op : UnaryOp) (operand : Expr) :
    (Expr.unary op operand).opens .unary = operand.opens .unary +
      if operand.clashes op then 1 else 0 := by
  have hlevel : ¬(Expr.unary op operand).level < .unary := Nat.lt_irrefl _
  have hsymbol : op.symbol ≠ '(' := by cases op <;> decide
  rw [opens_eq, if_neg hlevel, text, signed, opens]
  simp [count_enclose, clashes, textAt, hsymbol]

/-- A text that is one word, with an at sign before it or without. -/
def IsWord (text : List Char) : Prop :=
  ∃ word, word ≠ [] ∧ (∀ c ∈ word, isWordChar c = true) ∧ (text = word ∨ text = '@' :: word)

theorem isWord_of_isIdentifier {word : List Char} (h : isIdentifier word = true) :
    word ≠ [] ∧ ∀ c ∈ word, isWordChar c = true := by
  refine ⟨?_, isWordChar_of_isIdentifier h⟩
  rintro rfl
  cases h

theorem isWord_of_isVariable {text : String} (h : isVariable text = true) : IsWord text.toList := by
  simp only [isVariable, Bool.or_eq_true, beq_iff_eq] at h
  rcases h with h | rfl
  · unfold isName at h
    split at h
    · rename_i word htext
      obtain ⟨hn, hw⟩ := isWord_of_isIdentifier h
      exact ⟨word, hn, hw, .inr htext⟩
    · simp only [Bool.and_eq_true] at h
      obtain ⟨hn, hw⟩ := isWord_of_isIdentifier h.1
      exact ⟨text.toList, hn, hw, .inl rfl⟩
  · exact ⟨"this".toList, by decide, List.all_eq_true.1 (by decide), .inl rfl⟩

theorem isWord_of_isDecimal {text : List Char} (h : isDecimal text = true) : IsWord text := by
  refine ⟨text, ?_, isWordChar_of_isDecimal h, .inl rfl⟩
  rintro rfl
  cases h

theorem IsWord.head? {text : List Char} (h : IsWord text) {c : Char} (hc : text.head? = some c) :
    isWordChar c = true ∨ c = '@' := by
  obtain ⟨word, hn, hw, rfl | rfl⟩ := h
  · exact .inl (hw c (List.mem_of_head? hc))
  · exact .inr (Option.some.inj hc).symm

theorem IsWord.count_open {text : List Char} (h : IsWord text) : text.count '(' = 0 := by
  obtain ⟨word, hn, hw, rfl | rfl⟩ := h
  · exact count_open_word hw
  · simp [count_open_word hw]

theorem UnaryOp.eq_of_symbol_eq {op other : UnaryOp} (h : op.symbol = other.symbol) :
    op = other := by
  cases op <;> cases other <;> simp [UnaryOp.symbol] at h ⊢

theorem UnaryOp.isSign_token {op : UnaryOp} (h : op.isSign = true) :
    (Token.symbol op.symbol.toString).isSign = true := by
  cases op with
  | neg | pos => rfl
  | invert | not => cases h

/-- Only a sign in front of an operand can clash, since every other operand begins with a word or a
parenthesis. -/
theorem NativeTree.eq_unary_of_clashes {op : UnaryOp} {e : Expr} (h : NativeTree e)
    (hc : e.clashes op = true) : ∃ operand, e = .unary op operand := by
  obtain ⟨hsign, hhead⟩ : op.isSign = true ∧ (e.textAt .unary).toList.head? = some op.symbol := by
    simpa [Expr.clashes] using hc
  have hop : isWordChar op.symbol = false ∧ op.symbol ≠ '@' ∧ '(' ≠ op.symbol := by
    cases op <;> decide
  have hword : ∀ {text : List Char}, IsWord text → text.head? ≠ some op.symbol := by
    intro text hw heq
    rcases hw.head? heq with hchar | hat
    · rw [hop.1] at hchar
      cases hchar
    · exact hop.2.1 hat
  -- the operand stands without parentheses, as it begins with the sign
  have hlevel : ¬e.level < .unary := by
    intro hlt
    rw [Expr.textAt, placed, enclose, if_pos (by simpa using hlt)] at hhead
    exact hop.2.2 (by simpa using hhead)
  rw [Expr.textAt, placed, enclose, if_neg (by simpa using hlevel)] at hhead
  cases h with
  | name hv => exact absurd hhead (hword (isWord_of_isVariable hv))
  | decimal hd => exact absurd hhead (hword (isWord_of_isDecimal hd))
  | binary other _ _ =>
    refine absurd ?_ hlevel
    show other.level < .unary
    cases other <;> decide
  | @unary other operand _ =>
    have hsame : other.symbol = op.symbol := by simpa [Expr.text, signed] using hhead
    exact ⟨operand, by rw [UnaryOp.eq_of_symbol_eq hsame]⟩
  | conditional _ _ _ => exact absurd (by decide : Level.conditional < .unary) hlevel

/-- The tokens have enough parentheses for the tree at the level. Where an operator is asked for and
the tokens do not begin with it, it stands between parentheses. -/
structure Enough (level : Level) (tokens : List Token) (e : Expr) : Prop where
  opens : e.opens level ≤ tokens.count (.symbol "(")
  hidden : level = .unary → ∀ op operand, e = .unary op operand →
    tokens.head? ≠ some (.symbol op.symbol.toString) → e.opens .primary ≤ tokens.count (.symbol "(")

namespace Enough

variable {tokens : List Token} {e : Expr}

theorem word (hw : IsWord e.text.toList) (hl : e.level = .primary) : Enough .primary tokens e := by
  have hnone : e.opens .primary = 0 := by
    rw [Expr.opens_eq, hw.count_open, hl]
    rfl
  exact ⟨by omega, fun h => by cases h⟩

theorem parens (h : Enough .lowest tokens e) :
    Enough .primary (.symbol "(" :: (tokens ++ [.symbol ")"])) e := by
  have hcount : (Token.symbol "(" :: (tokens ++ [.symbol ")"])).count (.symbol "(") =
      tokens.count (.symbol "(") + 1 := by simp
  have := h.opens
  have := e.opens_primary_le
  exact ⟨by omega, fun h => by cases h⟩

theorem loosen {level : Level} (h : Enough level.tighter tokens e) : Enough level tokens e := by
  refine ⟨Nat.le_trans (e.opens_mono level.rank_le_rank_tighter) h.opens, ?_⟩
  rintro rfl _ _ _ _
  exact h.opens

theorem binary (op : BinaryOp) {ls rs : List Token} {l r : Expr} (hl : Enough op.level ls l)
    (hr : Enough op.level.tighter rs r) :
    Enough op.level (ls ++ .symbol op.symbol :: rs) (.binary op l r) := by
  have hcount : (ls ++ Token.symbol op.symbol :: rs).count (.symbol "(") =
      ls.count (.symbol "(") + rs.count (.symbol "(") := by
    cases op <;> simp [BinaryOp.symbol]
  have := hl.opens
  have := hr.opens
  refine ⟨?_, fun _ _ _ h => by cases h⟩
  rw [Expr.opens_binary]
  omega

theorem conditional {ts bs os : List Token} {t b o : Expr} (ht : Enough .or ts t)
    (hn : NativeTree b) (hb : Enough .lowest bs b) (ho : Enough .conditional os o) :
    Enough .conditional (ts ++ .symbol "?" :: (bs ++ .symbol ":" :: os)) (.conditional t b o) := by
  have hcount : (ts ++ Token.symbol "?" :: (bs ++ .symbol ":" :: os)).count (.symbol "(") =
      ts.count (.symbol "(") + (bs.count (.symbol "(") + os.count (.symbol "(")) := by
    simp
  -- between the two marks anything may stand, but nothing in the tree is that loose
  have hbody : b.opens .conditional = b.opens .lowest := by
    have hlow : ¬b.level < .lowest := Nat.not_lt_zero _
    rw [Expr.opens_eq, Expr.opens_eq, if_neg (Level.not_lt_of_le hn.conditional_le_level),
      if_neg hlow]
  have := ht.opens
  have := hb.opens
  have := ho.opens
  refine ⟨?_, fun _ _ _ h => by cases h⟩
  rw [Expr.opens_conditional]
  omega

theorem unary (op : UnaryOp) (hn : NativeTree e) (h : Enough .unary tokens e)
    (hc : Clear false (.symbol op.symbol.toString :: tokens)) :
    Enough .unary (.symbol op.symbol.toString :: tokens) (.unary op e) := by
  have hcount : (Token.symbol op.symbol.toString :: tokens).count (.symbol "(") =
      tokens.count (.symbol "(") := by
    cases op <;> simp [UnaryOp.symbol]
  constructor
  · rw [Expr.opens_unary, hcount]
    cases hclash : e.clashes op with
    | false => simpa using h.opens
    | true =>
      -- the operand begins with the same sign, which must not be the next token
      obtain ⟨operand, rfl⟩ := hn.eq_unary_of_clashes hclash
      have hsign : op.isSign = true := by
        simp only [Expr.clashes, Bool.and_eq_true] at hclash
        exact hclash.1
      have hinside := h.hidden rfl op operand rfl (hc.1 rfl (UnaryOp.isSign_token hsign))
      have hprimary :
          (Expr.unary op operand).opens .primary = (Expr.unary op operand).opens .unary + 1 := by
        have hlt : (Expr.unary op operand).level < .primary := (by decide : Level.unary < .primary)
        have hnot : ¬(Expr.unary op operand).level < .unary := Nat.lt_irrefl _
        rw [Expr.opens_eq, Expr.opens_eq, if_pos hlt, if_neg hnot]
      rw [hprimary] at hinside
      simpa using hinside
  · rintro - other operand heq hhead
    cases heq
    exact absurd rfl hhead

end Enough

theorem endsOperand_binary (op : BinaryOp) : (Token.symbol op.symbol).endsOperand = false := by
  cases op <;> decide

theorem endsOperand_unary (op : UnaryOp) :
    (Token.symbol op.symbol.toString).endsOperand = false := by
  cases op <;> decide

/-- Clear tokens from which a tree is derived have at least the parentheses of its text. -/
theorem Derives.enough {level : Level} {tokens : List Token} {e : Expr} (h : Derives level tokens e)
    (hn : NativeTree e) (hc : Clear false tokens) : Enough level tokens e :=
  match h with
  | .name _ => by
    cases hn with
    | name hv => exact .word (isWord_of_isVariable hv) rfl
  | .literal _ => by
    cases hn with
    | decimal hd => exact .word (isWord_of_isDecimal hd) rfl
  | .parens he => .parens (he.enough hn (Clear.front hc.2))
  | .member _ _ | .index _ _ | .invoke _ | .call _ _ | .assign _ _ => nomatch hn
  | .unary op he => by
    cases hn with
    | unary _ hn =>
      have hrest := hc.2
      rw [endsOperand_unary] at hrest
      exact .unary op hn (he.enough hn hrest) hc
  | .binary op hl hr => by
    cases hn with
    | binary _ hnl hnr =>
      have hright := hc.behind
      rw [endsOperand_binary] at hright
      exact .binary op (hl.enough hnl hc.front) (hr.enough hnr hright)
  | .conditional ht hb ho => by
    cases hn with
    | conditional hnt hnb hno =>
      have hbody : Clear false _ := hc.behind
      exact .conditional (ht.enough hnt hc.front) hnb (hb.enough hnb hbody.front)
        (ho.enough hno hbody.behind)
  | .loosen _ he => .loosen (he.enough hn hc)

/-! ## Texts with fewer parentheses -/

/-- A tidy text that has fewer parentheses than that of the tree does not read as the tree. -/
theorem NativeTree.not_parses {e : Expr} (h : NativeTree e) {text : String}
    (ht : Tidy false text.toList)
    (hlt : text.toList.count '(' < e.text.toList.count '(') : ¬Parses .lowest text e := by
  rintro ⟨tokens, htokens, hderives⟩
  have hlexes := lexes_of_tokenize htokens
  have henough := (hderives.enough h (hlexes.clear ht)).opens
  rw [hlexes.count_open, Expr.opens_eq] at henough
  omega

/-- A text that begins like an expression, and is tidy as an operand whatever tidy text comes behind
it. -/
structure TidyOperand (text : List Char) : Prop where
  opens : Opens text
  tidy : ∀ rest, Tidy true rest → Tidy false (text ++ rest)

theorem Opens.touches {text : List Char} (h : Opens text) (rest : List Char) :
    (text ++ rest).head? ≠ some ' ' := by
  obtain ⟨c, tail, rfl, hc⟩ := h
  intro heq
  cases heq
  exact absurd hc (by decide)

/-- The characters of a word, of which the last ends an operand. -/
theorem tidy_word {word rest : List Char} (hn : word ≠ []) (hw : ∀ c ∈ word, isWordChar c = true)
    (h : Tidy true rest) (after : Bool) : Tidy after (word ++ rest) := by
  induction word generalizing after with
  | nil => exact absurd rfl hn
  | cons c word ih =>
    have hc : isWordChar c = true := hw c List.mem_cons_self
    have hne : ∀ mark, isWordChar mark = false → c ≠ mark := by
      rintro mark hm rfl
      rw [hc] at hm
      cases hm
    rw [List.cons_append, tidy_cons (hne _ (by decide))]
    refine ⟨fun h => absurd h (hne _ (by decide)), fun h => absurd h (hne _ (by decide)), ?_, ?_⟩
    · rintro - (h | h | h) <;> exact absurd h (hne _ (by decide))
    · have hends : endsOperand c = true := by simp [endsOperand, hc]
      rw [hends]
      cases word with
      | nil => exact h
      | cons d word =>
          exact ih (List.cons_ne_nil d word) (fun e he => hw e (List.mem_cons_of_mem c he)) true

namespace TidyOperand

variable {text left right : List Char}

theorem word (ho : Opens text) (h : IsWord text) : TidyOperand text := by
  refine ⟨ho, ?_⟩
  intro rest hrest
  obtain ⟨word, hn, hw, rfl | rfl⟩ := h
  · exact tidy_word hn hw hrest false
  · rw [List.cons_append, tidy_cons (by decide)]
    refine ⟨fun _ => rfl, fun h => absurd h (by decide), ?_, tidy_word hn hw hrest _⟩
    rintro - (h | h | h) <;> exact absurd h (by decide)

theorem parens (h : TidyOperand text) : TidyOperand ('(' :: (text ++ [')'])) := by
  refine ⟨⟨'(', _, rfl, .inr (by decide)⟩, ?_⟩
  intro rest hrest
  rw [List.cons_append, List.append_assoc, tidy_open]
  refine ⟨rfl, h.opens.touches _, h.tidy _ ?_⟩
  rw [List.singleton_append, tidy_close]
  exact ⟨rfl, hrest⟩

/-- An operator with one operand touches it. -/
theorem unary (op : UnaryOp) (h : TidyOperand text) : TidyOperand (op.symbol :: text) := by
  refine ⟨⟨op.symbol, _, rfl, .inr (by cases op <;> decide)⟩, ?_⟩
  intro rest hrest
  have hop : op.symbol ≠ ' ' ∧ op.symbol ≠ '(' ∧ op.symbol ≠ ')' ∧
      endsOperand op.symbol = false := by
    cases op <;> decide
  rw [List.cons_append, tidy_cons hop.1, hop.2.2.2]
  exact ⟨fun h => absurd h hop.2.1, fun h => absurd h hop.2.2.1, fun _ _ => h.opens.touches rest,
    h.tidy rest hrest⟩

end TidyOperand

/-- Whether a character may stand in a symbol between two operands, in front of the other characters
or not. -/
def isInfixChar (isFirst : Bool) (c : Char) : Bool :=
  c != ' ' && c != '(' && !endsOperand c && (isFirst || c != '-' && c != '+')

/-- Whether characters are fit for a symbol between two operands. -/
def isInfix : List Char → Bool
  | [] => false
  | c :: rest => isInfixChar true c && rest.all (isInfixChar false)

theorem tidy_infixChar {after : Bool} {c : Char} {rest : List Char}
    (hc : isInfixChar after c = true) (h : Tidy false rest) : Tidy after (c :: rest) := by
  simp only [isInfixChar, Bool.and_eq_true, bne_iff_ne, Bool.not_eq_true', Bool.or_eq_true] at hc
  obtain ⟨⟨⟨hblank, hopen⟩, hends⟩, hsign⟩ := hc
  rw [tidy_cons hblank, hends]
  refine ⟨fun h => absurd h hopen, ?_, ?_, h⟩
  · rintro rfl
    exact absurd hends (by decide)
  · rintro rfl (rfl | rfl | rfl)
    · exact absurd rfl hopen
    · exact absurd hsign (by decide)
    · exact absurd hsign (by decide)

/-- A symbol between two operands, with blanks around it. -/
theorem tidy_infix {symbol rest : List Char} (hs : isInfix symbol = true) (h : Tidy false rest) :
    Tidy true (' ' :: (symbol ++ ' ' :: rest)) := by
  cases symbol with
  | nil => cases hs
  | cons c marks =>
    simp only [isInfix, Bool.and_eq_true, List.all_eq_true] at hs
    have hmarks : Tidy false (marks ++ ' ' :: rest) := by
      have hall := hs.2
      clear hs
      induction marks with
      | nil => exact (tidy_blank _ _).2 h
      | cons d marks ih =>
        exact tidy_infixChar (hall d List.mem_cons_self)
          (ih fun e he => hall e (List.mem_cons_of_mem d he))
    exact (tidy_blank _ _).2 (tidy_infixChar hs.1 hmarks)

theorem TidyOperand.divided {left symbol right : List Char} (hl : TidyOperand left)
    (hs : isInfix symbol = true)
    (hr : TidyOperand right) : TidyOperand (left ++ ' ' :: (symbol ++ ' ' :: right)) := by
  refine ⟨hl.opens.append _, ?_⟩
  intro rest hrest
  have hbehind := tidy_infix hs (hr.tidy rest hrest)
  have htext : left ++ ' ' :: (symbol ++ ' ' :: right) ++ rest = left ++ ' ' ::
      (symbol ++ ' ' :: (right ++ rest)) := by
    simp
  rw [htext]
  exact hl.tidy _ hbehind

theorem TidyOperand.enclose {text : String} (h : TidyOperand text.toList) (needed : Bool) :
    TidyOperand (enclose needed text).toList := by
  cases needed with
  | false => exact h
  | true =>
    have htext : (CSharp.enclose true text).toList = '(' :: (text.toList ++ [')']) := by
      simp [CSharp.enclose]
    rw [htext]
    exact h.parens

/-- The text of a tree of operators is tidy. -/
theorem NativeTree.tidyOperand {e : Expr} (h : NativeTree e) : TidyOperand e.text.toList := by
  induction h with
  | name hv => exact .word (.of_isVariable hv) (isWord_of_isVariable hv)
  | decimal hd =>
    have hword := isWord_of_isDecimal hd
    exact .word (OperatorTree.decimal hd).reads.opens hword
  | @binary op left right _ _ ihl ihr =>
    have htext : (Expr.binary op left right).text.toList =
        (placed op.level left.level left.text).toList ++
          ' ' :: (op.symbol.toList ++ ' ' ::
            (placed op.level.tighter right.level right.text).toList) := by
      simp [Expr.text]
    rw [htext]
    exact .divided (ihl.enclose _) (by cases op <;> decide) (ihr.enclose _)
  | @unary op operand _ ih =>
    have hoperand := (ih.enclose (operand.level < .unary)).enclose (operand.clashes op)
    have htext : (Expr.unary op operand).text.toList =
        op.symbol :: (CSharp.enclose (operand.clashes op)
          (placed .unary operand.level operand.text)).toList := by
      simp [Expr.text, signed, Expr.clashes, Expr.textAt]
    rw [htext]
    exact hoperand.unary op
  | @conditional test body orelse _ _ _ iht ihb iho =>
    have htext : (Expr.conditional test body orelse).text.toList =
        (placed .or test.level test.text).toList ++ ' ' :: (['?'] ++
          ' ' :: ((placed .conditional body.level body.text).toList ++ ' ' :: ([':'] ++
            ' ' :: (placed .conditional orelse.level orelse.text).toList))) := by
      simp [Expr.text]
    rw [htext]
    exact .divided (iht.enclose _)
      (by decide) (.divided (ihb.enclose _) (by decide) (iho.enclose _))

/-- Without an opening parenthesis of its text and a closing one behind it, the text does not read
as the tree. -/
theorem NativeTree.not_parses_erased {e : Expr} (h : NativeTree e)
    {before inside behind : List Char}
    (ht : e.text.toList = before ++ '(' :: (inside ++ ')' :: behind)) :
    ¬Parses .lowest (String.ofList (before ++ (inside ++ behind))) e := by
  have htidy : Tidy false e.text.toList := by
    have hall := h.tidyOperand.tidy [] trivial
    rwa [List.append_nil] at hall
  refine h.not_parses ?_ ?_
  · rw [String.toList_ofList]
    rw [ht] at htidy
    have hopen : Tidy false ((before ++ inside) ++ ')' :: behind) := by
      rw [List.append_assoc]
      exact htidy.erase_open
    rw [← List.append_assoc]
    exact hopen.erase_close
  · rw [String.toList_ofList, ht]
    simp only [List.count_append, List.count_cons_self,
      List.count_cons_of_ne (by decide : ')' ≠ '(')]
    omega

end PythonToCSharp.CSharp
