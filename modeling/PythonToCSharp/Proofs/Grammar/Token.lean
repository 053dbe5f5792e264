import Mathlib.Data.Bool.AllAny
import PythonToCSharp.CSharp.ExpressionText
import PythonToCSharp.CSharp.Identifier

/-!
The tokens of C# expressions, and how a text falls into them: the longest one first, so that two
equal signs of a number are one token, and a word up to the first character that belongs to no word.

A text that ends in a word or a bracket spells its tokens whatever comes behind it, if that does not
go on with the word. `Spells` says so, and its lemmas put longer texts together from shorter ones.
-/

namespace PythonToCSharp.CSharp

/-- A token of an expression. -/
inductive Token where
  /-- An identifier, with the at sign if there is one, or `this`. -/
  | name (text : String)
  | literal (text : String)
  /-- An operator or a mark. -/
  | symbol (text : String)
  deriving DecidableEq, Repr

/-! ## Words -/

/-- Whether a character may stand in a word. -/
def isWordChar (c : Char) : Bool :=
  c.isAlphanum || c == '_' || 128 ≤ c.toNat

/-- Whether a character may stand in a decimal number. -/
def isNumberChar (c : Char) : Bool :=
  c.isDigit || c == '_'

/-- Whether characters are an identifier, reserved or not. -/
def isIdentifier : List Char → Bool
  | [] => false
  | c :: rest => isWordChar c && !c.isDigit && rest.all isWordChar

/-- Whether characters are a decimal integer. -/
def isDecimal : List Char → Bool
  | [] => false
  | c :: rest => c.isDigit && rest.all isNumberChar

/-- The reserved words that are literals. -/
def literalWords : List String := ["true", "false", "null"]

/-- The token of a word. -/
def wordToken (word : List Char) : Option Token :=
  let text := String.ofList word
  if isDecimal word then some (.literal text)
  else if literalWords.contains text then some (.literal text)
  else if text = "this" then some (.name text)
  else if isIdentifier word && !keywords.contains text then some (.name text)
  else none

/-- The token of a word behind an at sign. -/
def verbatimToken (word : List Char) : Option Token :=
  if isIdentifier word then some (.name (String.ofList ('@' :: word))) else none

/-! ## Symbols -/

/-- The characters of which each is a symbol by itself. -/
def symbolChars : List Char := "+-*/%|^&<>=?:.,()[]~!".toList

/-- The characters that make one symbol together. -/
def symbolPairs : List (Char × Char) :=
  [('-', '-'), ('+', '+'), ('&', '&'), ('|', '|'), ('=', '='), ('!', '='), ('<', '='), ('>', '='),
    ('<', '<'), ('>', '>')]

/-- Whether a character makes one symbol with the one behind it. -/
def joins (c : Char) (next : Option Char) : Bool :=
  next.any fun d => symbolPairs.contains (c, d)

/-- Whether characters are one symbol. -/
def isSymbol : List Char → Bool
  | [c] => symbolChars.contains c
  | [c, d] => symbolPairs.contains (c, d)
  | _ => false

theorem length_dropWhile_le (p : Char → Bool) (cs : List Char) :
    (cs.dropWhile p).length ≤ cs.length :=
  (List.dropWhile_sublist p).length_le

/-- The tokens of a text, unless something in it belongs to no token. -/
def tokenize : List Char → Option (List Token)
  | [] => some []
  | c :: rest =>
    if c = ' ' then tokenize rest
    else if isWordChar c then
      (wordToken (c :: rest.takeWhile isWordChar)).bind fun token =>
        (tokenize (rest.dropWhile isWordChar)).map (token :: ·)
    else if c = '@' then
      (verbatimToken (rest.takeWhile isWordChar)).bind fun token =>
        (tokenize (rest.dropWhile isWordChar)).map (token :: ·)
    else if symbolChars.contains c then
      let more := if joins c rest.head? then 1 else 0
      (tokenize (rest.drop more)).map (.symbol (String.ofList (c :: rest.take more)) :: ·)
    else none
termination_by cs => cs.length
decreasing_by
  · simp
  · have := length_dropWhile_le isWordChar rest
    simp only [List.length_cons]
    omega
  · have := length_dropWhile_le isWordChar rest
    simp only [List.length_cons]
    omega
  · simp only [List.length_drop, List.length_cons]
    omega

/-! ## One token -/

/-- What stands behind a word does not go on with it. -/
def Boundary (rest : List Char) : Prop :=
  ∀ c ∈ rest.head?, isWordChar c = false

theorem Boundary.nil : Boundary [] := by
  intro c h
  cases h

theorem Boundary.cons {c : Char} (h : isWordChar c = false) (rest : List Char) :
    Boundary (c :: rest) := by
  intro d hd
  cases hd
  exact h

theorem Boundary.takeWhile {rest : List Char} (h : Boundary rest) :
    rest.takeWhile isWordChar = [] := by
  cases rest with
  | nil => rfl
  | cons c rest => simp [h c rfl]

theorem Boundary.dropWhile {rest : List Char} (h : Boundary rest) :
    rest.dropWhile isWordChar = rest := by
  cases rest with
  | nil => rfl
  | cons c rest => simp [h c rfl]

@[simp] theorem tokenize_nil : tokenize [] = some [] := by
  rw [tokenize]

@[simp] theorem tokenize_blank (rest : List Char) : tokenize (' ' :: rest) = tokenize rest := by
  rw [tokenize]
  exact if_pos rfl

theorem tokenize_word {word rest : List Char} {token : Token} (hn : word ≠ [])
    (hw : ∀ c ∈ word, isWordChar c = true) (hb : Boundary rest) (ht : wordToken word = some token) :
    tokenize (word ++ rest) = (tokenize rest).map (token :: ·) := by
  obtain ⟨c, tail, rfl⟩ := List.exists_cons_of_ne_nil hn
  have hc : isWordChar c = true := hw c List.mem_cons_self
  have htail : ∀ d ∈ tail, isWordChar d = true := fun d hd => hw d (List.mem_cons_of_mem c hd)
  have hblank : c ≠ ' ' := by
    rintro rfl
    exact absurd hc (by decide)
  rw [List.cons_append, tokenize, if_neg hblank, if_pos hc, List.takeWhile_append_of_pos htail,
    List.dropWhile_append_of_pos htail, hb.takeWhile, hb.dropWhile, List.append_nil, ht]
  rfl

theorem tokenize_verbatim {word rest : List Char} (hw : isIdentifier word = true)
    (hall : ∀ c ∈ word, isWordChar c = true) (hb : Boundary rest) :
    tokenize ('@' :: (word ++ rest)) =
      (tokenize rest).map (.name (String.ofList ('@' :: word)) :: ·) := by
  rw [tokenize, if_neg (by decide), if_neg (by decide), if_pos rfl,
    List.takeWhile_append_of_pos hall, List.dropWhile_append_of_pos hall, hb.takeWhile,
    hb.dropWhile, List.append_nil, verbatimToken, if_pos hw]
  rfl

/-- No symbol begins with a blank, an at sign or a character of a word. -/
theorem of_mem_symbolChars {c : Char} (h : symbolChars.contains c = true) :
    c ≠ ' ' ∧ isWordChar c = false ∧ c ≠ '@' := by
  have hall : ∀ d ∈ symbolChars, d ≠ ' ' ∧ isWordChar d = false ∧ d ≠ '@' :=
    List.all_iff_forall_prop.1 (by decide)
  exact hall c (by simpa using h)

theorem tokenize_symbol {c : Char} {rest : List Char} (hc : symbolChars.contains c = true)
    (hj : joins c rest.head? = false) :
    tokenize (c :: rest) = (tokenize rest).map (.symbol (String.ofList [c]) :: ·) := by
  obtain ⟨hblank, hword, hat⟩ := of_mem_symbolChars hc
  rw [tokenize, if_neg hblank, if_neg (by simp [hword]), if_neg hat, if_pos hc]
  simp [hj]

theorem tokenize_pair {c d : Char} {rest : List Char} (hp : symbolPairs.contains (c, d) = true) :
    tokenize (c :: d :: rest) = (tokenize rest).map (.symbol (String.ofList [c, d]) :: ·) := by
  have hall : ∀ p ∈ symbolPairs, symbolChars.contains p.1 = true := by decide
  have hc : symbolChars.contains c = true := hall (c, d) (by simpa using hp)
  obtain ⟨hblank, hword, hat⟩ := of_mem_symbolChars hc
  rw [tokenize, if_neg hblank, if_neg (by simp [hword]), if_neg hat, if_pos hc]
  have hj : joins c (d :: rest).head? = true := hp
  simp only [hj, ↓reduceIte]
  rfl

/-! ## Texts and their tokens -/

/-- A text that falls into `tokens` if nothing goes on with its last word. -/
def Spells (text : List Char) (tokens : List Token) : Prop :=
  ∀ rest, Boundary rest → tokenize (text ++ rest) = (tokenize rest).map (tokens ++ ·)

/-- A text between two others, which ends the word before it and falls into `tokens` whatever
follows. -/
structure Divides (text : List Char) (tokens : List Token) : Prop where
  boundary : ∀ rest, Boundary (text ++ rest)
  splits : ∀ rest, tokenize (text ++ rest) = (tokenize rest).map (tokens ++ ·)

namespace Divides

variable {text : List Char} {tokens : List Token}

theorem spells (h : Divides text tokens) : Spells text tokens :=
  fun rest _ => h.splits rest

end Divides

namespace Spells

variable {text text' mark : List Char} {tokens tokens' between : List Token}

/-- A text on its own falls into the tokens that it spells. -/
theorem tokenize_eq (h : Spells text tokens) : tokenize text = some tokens := by
  have h' := h [] Boundary.nil
  rw [List.append_nil, tokenize_nil] at h'
  simpa using h'

theorem prepend (hm : Divides mark between) (h : Spells text tokens) :
    Spells (mark ++ text) (between ++ tokens) := by
  intro rest hb
  rw [List.append_assoc, hm.splits, h rest hb, Option.map_map]
  simp [Function.comp_def]

theorem divided (h : Spells text tokens) (hm : Divides mark between) (h' : Spells text' tokens') :
    Spells (text ++ (mark ++ text')) (tokens ++ (between ++ tokens')) := by
  intro rest hb
  have hs : Boundary (mark ++ text' ++ rest) := by
    rw [List.append_assoc]
    exact hm.boundary _
  rw [List.append_assoc, h _ hs, prepend hm h' rest hb, Option.map_map]
  simp [Function.comp_def]

/-- A mark behind a text, such as a closing bracket. -/
theorem followed (h : Spells text tokens) (hm : Divides mark between) :
    Spells (text ++ mark) (tokens ++ between) := by
  intro rest _
  rw [List.append_assoc, h _ (hm.boundary rest), hm.splits, Option.map_map]
  simp [Function.comp_def]

end Spells

end PythonToCSharp.CSharp
