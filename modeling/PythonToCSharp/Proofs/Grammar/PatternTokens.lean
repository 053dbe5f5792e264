import Mathlib.Data.List.SplitBy
import PythonToCSharp.Proofs.Grammar.Printing
import PythonToCSharp.Text.Lines

/-!
The tokens of C# patterns. A word is a longest run of letters, digits, underscores and at signs, two
points are one mark, and every other character stands by itself. Blanks keep tokens apart and are
none.

A text falls into the tokens of its parts wherever the characters that meet there do not stand
together, as at every bracket, comma and blank.
-/

namespace PythonToCSharp.CSharp.PatternSyntax

/-- Whether a character belongs to a word, with the at sign before a reserved one. -/
def inWord (c : Char) : Bool :=
  isWordChar c || c == '@'

/-- Whether a character stands together with the one behind it. -/
def together (c d : Char) : Bool :=
  inWord c && inWord d || c == '.' && d == '.'

/-- The tokens of a text. -/
def tokens (text : String) : List String :=
  ((text.toList.splitBy together).filter (· != [' '])).map String.ofList

/-! ## Where texts meet -/

theorem tokens_append {a b : String}
    (h : ∀ c ∈ a.toList.getLast?, ∀ d ∈ b.toList.head?, together c d = false) :
    tokens (a ++ b) = tokens a ++ tokens b := by
  simp [tokens, List.splitBy_append h]

/-- Whether a character stands with no other. -/
def isLone (c : Char) : Bool :=
  !inWord c && c != '.'

/-- Whether a text does not go on with what is before it, whatever that is. -/
def beginsApart (mark : String) : Bool :=
  mark.toList.head?.any isLone

/-- Whether nothing goes on with a text. -/
def endsApart (mark : String) : Bool :=
  mark.toList.getLast?.any isLone

theorem together_of_isLone_left {c : Char} (h : isLone c = true) (d : Char) :
    together c d = false := by
  simp only [isLone, Bool.and_eq_true, Bool.not_eq_true', bne_iff_ne] at h
  simp [together, h.1, h.2]

theorem together_of_isLone_right {d : Char} (h : isLone d = true) (c : Char) :
    together c d = false := by
  simp only [isLone, Bool.and_eq_true, Bool.not_eq_true', bne_iff_ne] at h
  simp [together, h.1, h.2]

theorem tokens_mark_append {mark : String} (h : endsApart mark = true) (text : String) :
    tokens (mark ++ text) = tokens mark ++ tokens text := by
  refine tokens_append ?_
  intro c hc d _
  obtain ⟨last, hlast, hlone⟩ := (Option.any_eq_true _ _).1 h
  cases hlast.symm.trans hc
  exact together_of_isLone_left hlone d

theorem tokens_append_mark (text : String) {mark : String} (h : beginsApart mark = true) :
    tokens (text ++ mark) = tokens text ++ tokens mark := by
  refine tokens_append ?_
  intro c _ d hd
  obtain ⟨first, hfirst, hlone⟩ := (Option.any_eq_true _ _).1 h
  cases hfirst.symm.trans hd
  exact together_of_isLone_right hlone c

/-- A text that falls into the given tokens and stands apart from what is before and behind it. -/
structure Divides (mark : String) (between : List String) : Prop where
  begins : beginsApart mark = true
  ends : endsApart mark = true
  tokens_eq : tokens mark = between

theorem Divides.tokens_append {mark : String} {between : List String} (h : Divides mark between)
    (a b : String) : tokens (a ++ mark ++ b) = tokens a ++ (between ++ tokens b) := by
  have hends : endsApart (a ++ mark) = true := by
    obtain ⟨last, hlast, hlone⟩ := (Option.any_eq_true _ _).1 h.ends
    simp [endsApart, hlast, hlone]
  rw [tokens_mark_append hends, tokens_append_mark a h.begins, h.tokens_eq, List.append_assoc]

theorem divides_comma : Divides ", " [","] where
  begins := by decide
  ends := by decide
  tokens_eq := by decide

/-! ## Words -/

/-- Whether a text is one word. -/
def isWord (text : String) : Bool :=
  text.toList != [] && text.toList.all inWord

theorem isWord_of_isIdentifier {word : String} (h : isIdentifier word.toList = true) :
    isWord word = true := by
  have hn : word.toList ≠ [] := by
    intro hnil
    rw [hnil] at h
    cases h
  simp only [isWord, Bool.and_eq_true, bne_iff_ne, List.all_eq_true]
  exact ⟨hn, fun c hc => by simp [inWord, isWordChar_of_isIdentifier h c hc]⟩

theorem tokens_word {word : String} (h : isWord word = true) : tokens word = [word] := by
  simp only [isWord, Bool.and_eq_true, bne_iff_ne, List.all_eq_true] at h
  obtain ⟨hn, hall⟩ := h
  have hchain : word.toList.IsChain fun c d => together c d = true := by
    refine List.Pairwise.isChain (List.pairwise_iff_forall_sublist.2 ?_)
    intro c d hsub
    have hc : inWord c = true := hall c (hsub.subset (by simp))
    have hd : inWord d = true := hall d (hsub.subset (by simp))
    simp [together, hc, hd]
  have hblank : word.toList ≠ [' '] := by
    intro heq
    exact absurd (hall ' ' (by simp [heq])) (by decide)
  simp [tokens, List.splitBy_of_isChain hn hchain, hblank]

theorem join_cons_cons (separator first second : String) (rest : List String) :
    Text.join separator (first :: second :: rest) = first ++ separator ++
      Text.join separator (second :: rest) :=
  rfl

/-- The first character of words with points between them is one of a word. -/
theorem inWord_head_join {word : String} (h : isWord word = true) (rest : List String) :
    ∀ c ∈ (Text.join "." (word :: rest)).toList.head?, inWord c = true := by
  simp only [isWord, Bool.and_eq_true, bne_iff_ne, List.all_eq_true] at h
  obtain ⟨first, more, hword⟩ := List.exists_cons_of_ne_nil h.1
  have hfirst : inWord first = true := h.2 first (by simp [hword])
  intro c hc
  cases rest with
  | nil =>
    rw [Text.join, hword] at hc
    cases hc
    exact hfirst
  | cons next rest =>
    rw [join_cons_cons, String.toList_append, String.toList_append, hword] at hc
    cases hc
    exact hfirst

/-- Words with points between them fall into the words and the points. -/
theorem tokens_join_point {words : List String} (h : ∀ word ∈ words, isWord word = true) :
    tokens (Text.join "." words) = words.intersperse "." := by
  induction words with
  | nil => rfl
  | cons word rest ih =>
    have hword : isWord word = true := h word List.mem_cons_self
    have hrest : ∀ other ∈ rest, isWord other = true :=
      fun other ho => h other (List.mem_cons_of_mem _ ho)
    cases rest with
    | nil => exact tokens_word hword
    | cons next rest =>
      have hpoint : ∀ c ∈ (word ++ ".").toList.getLast?,
          ∀ d ∈ (Text.join "." (next :: rest)).toList.head?, together c d = false := by
        intro c hc d hd
        have hd' : inWord d = true := inWord_head_join (hrest next List.mem_cons_self) rest d hd
        have hne : d ≠ '.' := by
          rintro rfl
          exact absurd hd' (by decide)
        obtain rfl : '.' = c := by simpa using hc
        simp [together, hne, show inWord '.' = false by decide]
      have hbefore : ∀ c ∈ word.toList.getLast?, ∀ d ∈ ".".toList.head?, together c d = false := by
        intro c hc d hd
        simp only [isWord, Bool.and_eq_true, List.all_eq_true] at hword
        have hc' : inWord c = true := hword.2 c (List.mem_of_getLast? hc)
        have hne : c ≠ '.' := by
          rintro rfl
          exact absurd hc' (by decide)
        obtain rfl : '.' = d := by simpa using hd
        simp [together, hne, show inWord '.' = false by decide]
      rw [join_cons_cons, tokens_append hpoint, tokens_append hbefore, tokens_word hword, ih hrest]
      rfl

end PythonToCSharp.CSharp.PatternSyntax
