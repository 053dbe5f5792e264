import Mathlib.Data.List.Chain
import PythonToCSharp.Proofs.Reading.Nodes

/-!
String tokens are split without loss. The letters, the quote marks and the body are found again in
the token's text. The parts of an f-string, with the text of each interpolation in its place, make
up the body.

Offsets count bytes and pieces are lists of characters; `Info.Covers` ties the two together. Cutting
at the offsets of such nodes never falls inside a character.
-/

namespace PythonToCSharp

/-! ## Pieces of a text -/

namespace Text

theorem byteLength_eq_zero {cs : List Char} (h : byteLength cs = 0) : cs = [] := by
  cases cs with
  | nil => rfl
  | cons c cs =>
    have hc := utf8Size_ne_zero c
    rw [byteLength] at h
    omega

/-- Of two pieces in front of a text, the one with fewer bytes is in front of the other. -/
theorem exists_append_of_byteLength_le {xs ys zs ws : List Char} (h : xs ++ ys = zs ++ ws)
    (hl : byteLength xs ≤ byteLength zs) : ∃ middle, zs = xs ++ middle ∧ ys = middle ++ ws := by
  rcases List.append_eq_append_iff.1 h with ⟨middle, hz, hy⟩ | ⟨middle, hx, hw⟩
  · exact ⟨middle, hz, hy⟩
  · rw [hx, byteLength_append] at hl
    have hnil : middle = [] := byteLength_eq_zero (by omega)
    subst hnil
    exact ⟨[], by simpa using hx.symm, by simpa using hw.symm⟩

end Text

open Text (byteLength byteLength_append)

/-- A node covers a piece of a text: the offsets are those of the piece, and the piece is the node's
text. -/
def Concrete.Info.Covers (info : Concrete.Info) (source : List Char) : Prop :=
  ∃ front middle rest, source = front ++ (middle ++ rest) ∧ info.start = byteLength front ∧
    info.stop = byteLength (front ++ middle) ∧ info.text = String.ofList middle

/-- A node between two offsets covers a piece of the text between them. -/
theorem Concrete.Info.Covers.inside {info : Concrete.Info} {front body rest : List Char}
    (h : info.Covers (front ++ (body ++ rest))) (hstart : byteLength front ≤ info.start)
    (hstop : info.stop ≤ byteLength (front ++ body)) :
    ∃ before middle behind, body = before ++ (middle ++ behind) ∧
      info.start = byteLength (front ++ before) ∧
      info.stop = byteLength (front ++ (before ++ middle)) ∧ info.text = String.ofList middle := by
  obtain ⟨front', middle, rest', hsource, hs, he, htext⟩ := h
  rw [hs] at hstart
  obtain ⟨before, rfl, hbody⟩ := Text.exists_append_of_byteLength_le hsource hstart
  rw [List.append_assoc] at he
  have hle : byteLength (before ++ middle) ≤ byteLength body := by
    rw [he, byteLength_append front, byteLength_append front] at hstop
    omega
  rw [← List.append_assoc] at hbody
  obtain ⟨behind, rfl, -⟩ := Text.exists_append_of_byteLength_le hbody.symm hle
  exact ⟨before, middle, behind, List.append_assoc _ _ _, hs, he, htext⟩

namespace Reading

open Python Concrete

/-! ## The text of a token -/

/-- The quote marks. -/
def quoteMarks : List (List Char) :=
  [['"'], ['\''], ['"', '"', '"'], ['\'', '\'', '\'']]

/-- The text of a string token: letters, a quote mark, a body and the mark again. Behind a mark of
one character the body does not begin with that character. -/
structure TokenText (text letters mark body : List Char) : Prop where
  text_eq : text = letters ++ mark ++ (body ++ mark)
  letters_alpha : ∀ c ∈ letters, c.isAlpha = true
  mark_mem : mark ∈ quoteMarks
  body_head : ∀ q, mark = [q] → body.head? ≠ some q

/-- A letter, small or capital, stands in front of the mark. -/
def HasLetter (letters : List Char) (small capital : Char) : Prop :=
  small ∈ letters ∨ capital ∈ letters

instance (letters : List Char) (small capital : Char) :
    Decidable (HasLetter letters small capital) :=
  inferInstanceAs (Decidable (small ∈ letters ∨ capital ∈ letters))

theorem isQuote_of_isAlpha {c : Char} (h : c.isAlpha = true) : isQuote c = false := by
  cases hq : isQuote c with
  | false => rfl
  | true =>
    have hcases : c = '"' ∨ c = '\'' := by simpa [isQuote] using hq
    rcases hcases with rfl | rfl <;> exact absurd h (by decide)

/-- Only a small letter and its capital have the small letter as their small form. -/
theorem toLower_eq_iff {c small capital : Char} (hs : small.val = capital.val + 32)
    (hu : 'A'.val ≤ capital.val ∧ capital.val ≤ 'Z'.val) :
    c.toLower = small ↔ c = small ∨ c = capital := by
  unfold Char.toLower
  split
  · simp only [Char.ext_iff, hs]
    constructor
    · intro hc
      have hshift : c.val + 32 = capital.val + 32 := hc
      exact .inr (by grind)
    · rintro (hc | hc)
      · grind
      · rw [hc]
        rfl
  · constructor
    · exact .inl
    · rintro (rfl | rfl)
      · rfl
      · contradiction

theorem hasLetter_eq {small capital : Char} (hs : small.val = capital.val + 32)
    (hu : 'A'.val ≤ capital.val ∧ capital.val ≤ 'Z'.val) (letters : List Char) :
    hasLetter letters small = decide (HasLetter letters small capital) := by
  rw [Bool.eq_iff_iff, hasLetter, List.any_eq_true, decide_eq_true_iff, HasLetter]
  simp only [beq_iff_eq, toLower_eq_iff hs hu]
  grind

namespace TokenText

variable {text letters mark body : List Char}

theorem stringLetters_eq (h : TokenText text letters mark body) : stringLetters text = letters := by
  have hletters : ∀ c ∈ letters, (!isQuote c) = true := by
    intro c hc
    simp [isQuote_of_isAlpha (h.letters_alpha c hc)]
  have hmark : mark.head?.any isQuote = true := by
    have hall : ∀ mark ∈ quoteMarks, mark.head?.any isQuote = true := by decide
    exact hall mark h.mark_mem
  cases hm : mark with
  | nil =>
    rw [hm] at hmark
    cases hmark
  | cons q rest =>
    rw [hm] at hmark
    have hq : isQuote q = true := hmark
    rw [h.text_eq, hm, List.append_assoc, stringLetters, if_pos (by simp [hq]),
      List.takeWhile_append_of_pos hletters]
    simp [hq]

/-- The mark is known from the first three characters, since a body behind a single quote does not
begin with one. -/
theorem markLength_eq (h : TokenText text letters mark body) :
    markLength (mark ++ (body ++ mark)) = mark.length := by
  have hbody := h.body_head
  have hmem := h.mark_mem
  simp only [quoteMarks, List.mem_cons, List.not_mem_nil, or_false] at hmem
  rcases hmem with rfl | rfl | rfl | rfl
  · cases body with
    | nil => rfl
    | cons c rest =>
      have hc : c ≠ '"' := by simpa using hbody '"' rfl
      simp [markLength, hc]
  · cases body with
    | nil => rfl
    | cons c rest =>
      have hc : c ≠ '\'' := by simpa using hbody '\'' rfl
      simp [markLength, hc]
  · rfl
  · rfl

theorem byteLength_mark (h : TokenText text letters mark body) : byteLength mark = mark.length := by
  have hall : ∀ mark ∈ quoteMarks, byteLength mark = mark.length := by decide
  exact hall mark h.mark_mem

/-- The bounds of the body are those of the piece between the marks. -/
theorem bodyBounds_eq (h : TokenText text letters mark body) :
    bodyBounds text = (byteLength (letters ++ mark), byteLength (letters ++ mark ++ body)) := by
  have hdrop : text.drop letters.length = mark ++ (body ++ mark) := by
    rw [h.text_eq, List.append_assoc, List.drop_left]
  have hmark := h.byteLength_mark
  have hstop : max (byteLength text - mark.length) (byteLength (letters ++ mark)) =
      byteLength (letters ++ mark ++ body) := by
    rw [h.text_eq]
    simp only [byteLength_append]
    omega
  rw [bodyBounds]
  simp only [h.stringLetters_eq, hdrop, h.markLength_eq, ← hmark]
  rw [← byteLength_append, hmark, hstop]

end TokenText

/-! ## The parts of an f-string -/

/-- Whether a part is text as written. -/
def isLiteral : FStringPart → Bool
  | .literal _ => true
  | .interpolation _ _ => false

/-- The parts of a piece without an interpolation. -/
def literalOf (piece : List Char) : List FStringPart :=
  if piece = [] then [] else [.literal (String.ofList piece)]

/-- The interpolations among the parts of an f-string. -/
def interpolations : List FStringPart → List (Expr × Option String)
  | [] => []
  | .literal _ :: rest => interpolations rest
  | .interpolation e format :: rest => (e, format) :: interpolations rest

/-- The text that parts stand for, with a text in place of each interpolation. -/
def filled : List FStringPart → List (List Char) → List Char
  | [], _ => []
  | .literal text :: rest, texts => text.toList ++ filled rest texts
  | .interpolation _ _ :: rest, texts => texts.headD [] ++ filled rest texts.tail

/-- Literals have no part in the interpolations. -/
theorem interpolations_literalOf_append (piece : List Char) (parts : List FStringPart) :
    interpolations (literalOf piece ++ parts) = interpolations parts := by
  unfold literalOf
  split <;> rfl

/-- Parts into which a body is split without loss: nothing of it is missing, no literal is empty,
and no two literals are adjacent. -/
structure Lossless (parts : List FStringPart) (texts : List (List Char))
    (body : List Char) : Prop where
  filled_eq : filled parts texts = body
  literal_ne : ∀ text, .literal text ∈ parts → text ≠ ""
  apart : parts.IsChain fun part next => ¬(isLiteral part = true ∧ isLiteral next = true)

/-- Between the offsets of a piece there is that piece. -/
theorem literalBetween_eq (front piece rest : List Char) :
    literalBetween (front ++ (piece ++ rest)) (byteLength front)
      (byteLength (front ++ piece)) = literalOf piece := by
  by_cases hp : piece = []
  · simp [literalBetween, literalOf, hp]
  · have hpos : byteLength piece ≠ 0 := fun h => hp (Text.byteLength_eq_zero h)
    rw [literalBetween, literalOf, if_neg hp, if_pos (by rw [byteLength_append]; omega),
      byteLength_append, ← List.append_assoc, Text.slice_append_append]

/-- A piece without an interpolation, in front of parts that begin with none. -/
theorem Lossless.literal {parts : List FStringPart} {texts : List (List Char)} {body : List Char}
    (h : Lossless parts texts body) (hstart : ∀ part ∈ parts.head?, isLiteral part = false)
    (piece : List Char) : Lossless (literalOf piece ++ parts) texts (piece ++ body) := by
  by_cases hp : piece = []
  · rwa [literalOf, if_pos hp, hp, List.nil_append, List.nil_append]
  · obtain ⟨hfilled, hne, hapart⟩ := h
    rw [literalOf, if_neg hp, List.singleton_append]
    refine ⟨by simp [filled, hfilled], ?_, List.isChain_cons.2 ⟨?_, hapart⟩⟩
    · intro text htext
      rcases List.mem_cons.1 htext with heq | hmem
      · cases heq
        simpa [String.ext_iff] using hp
      · exact hne text hmem
    · intro next hnext
      simp [hstart next hnext]

theorem Lossless.interpolation {parts : List FStringPart} {texts : List (List Char)}
    {body : List Char}
    (h : Lossless parts texts body) (e : Expr) (format : Option String) (inner : List Char) :
    Lossless (.interpolation e format :: parts) (inner :: texts) (inner ++ body) := by
  obtain ⟨hfilled, hne, hapart⟩ := h
  refine ⟨by simp [filled, hfilled], ?_, List.isChain_cons.2 ⟨by simp [isLiteral], hapart⟩⟩
  intro text htext
  exact hne text (by simpa using htext)

/-- An interpolation as it is read alone: its expression, with its format. -/
def interpolation? (node : Node) : Option (Expr × Option String) :=
  (interpolated (readTree node)).map fun e => (e, formatSpec (readTree node))

/-- The parts of what is left of a body: each interpolation is found where the piece in front of it
ends. -/
theorem fstringParts_lossless {front body rest : List Char} {origin : Nat} {nodes : List Node}
    (hread : ∀ node ∈ nodes, (interpolation? node).isSome = true)
    (hcovers : ∀ node ∈ nodes, ∃ before inner behind, body = before ++ (inner ++ behind) ∧
      node.info.start = origin + byteLength (front ++ before) ∧
      node.info.stop = origin + byteLength (front ++ (before ++ inner)) ∧
        node.text = String.ofList inner)
    (horder : nodes.Pairwise fun node next => node.info.stop ≤ next.info.start) :
    ∃ parts, fstringParts (front ++ (body ++ rest)) origin (byteLength (front ++ body))
        (byteLength front) (nodes.map readTree) = some parts ∧
      nodes.mapM interpolation? = some (interpolations parts) ∧
      Lossless parts (nodes.map fun node => node.text.toList) body := by
  induction nodes generalizing front body with
  | nil =>
    have hnil : Lossless [] [] [] := ⟨rfl, by simp, .nil⟩
    refine ⟨literalOf body, ?_, ?_, by simpa using hnil.literal (by simp) body⟩
    · rw [List.map_nil, fstringParts, literalBetween_eq]
    · have hnone := interpolations_literalOf_append body []
      rw [List.append_nil] at hnone
      rw [hnone]
      rfl
  | cons node nodes ih =>
    rw [List.forall_mem_cons] at hread hcovers
    obtain ⟨before, inner, behind, rfl, hstart, hstop, htext⟩ := hcovers.1
    obtain ⟨hfirst, hlater⟩ := List.pairwise_cons.1 horder
    obtain ⟨⟨e, format⟩, hnode⟩ := Option.isSome_iff_exists.1 hread.1
    obtain ⟨e', he, hpair⟩ := Option.map_eq_some_iff.1 hnode
    obtain ⟨rfl, rfl⟩ := Prod.mk.inj hpair
    -- the nodes behind this one cover pieces of what stands behind its text
    have hbehind : ∀ next ∈ nodes, ∃ before' inner' behind',
        behind = before' ++ (inner' ++ behind') ∧
        next.info.start = origin + byteLength (front ++ (before ++ inner) ++ before') ∧
        next.info.stop = origin + byteLength (front ++ (before ++ inner) ++ (before' ++ inner')) ∧
        next.text = String.ofList inner' := by
      intro next hnext
      obtain ⟨before', inner', behind', hbody, hs, he, ht⟩ := hcovers.2 next hnext
      have hle : byteLength (before ++ inner) ≤ byteLength before' := by
        have := hfirst next hnext
        rw [hstop, hs, byteLength_append front, byteLength_append front] at this
        omega
      rw [← List.append_assoc] at hbody
      obtain ⟨middle, rfl, hb⟩ := Text.exists_append_of_byteLength_le hbody hle
      exact ⟨middle, inner', behind', hb, by simpa using hs, by simpa using he, ht⟩
    obtain ⟨parts, hparts, hmap, hlossless⟩ := ih hread.2 hbehind hlater
    refine ⟨literalOf before ++ .interpolation e' (formatSpec (readTree node)) :: parts, ?_, ?_, ?_⟩
    · have hfront : node.info.start - origin = byteLength (front ++ before) := by omega
      have hposition : node.info.stop - origin = byteLength (front ++ (before ++ inner)) := by omega
      have hpiece := literalBetween_eq front before (inner ++ (behind ++ rest))
      simp only [List.append_assoc] at hparts hpiece ⊢
      rw [List.map_cons, fstringParts, info_readTree, hfront, hposition, he, hparts, hpiece]
      rfl
    · rw [interpolations_literalOf_append, List.mapM_cons, hnode, hmap]
      rfl
    · rw [List.map_cons, htext, String.toList_ofList]
      exact (hlossless.interpolation e' _ inner).literal (by simp [isLiteral]) before

/-- Nodes that cover pieces of a text between two offsets, one behind the other. -/
structure InOrder (source : List Char) (first last : Nat) (nodes : List Node) : Prop where
  covers : ∀ node ∈ nodes, node.info.Covers source
  inside : ∀ node ∈ nodes, first ≤ node.info.start ∧ node.info.stop ≤ last
  ordered : nodes.Pairwise fun node next => node.info.stop ≤ next.info.start

/-- Nodes between the marks of a token cover pieces of its body. -/
theorem InOrder.pieces {source letters mark body : List Char} {info : Info} {nodes : List Node}
    (h : InOrder source (info.start + byteLength (letters ++ mark))
      (info.start + byteLength (letters ++ mark ++ body)) nodes)
    (hcovers : info.Covers source) (htext : TokenText info.text.toList letters mark body) :
    ∀ node ∈ nodes, ∃ before inner behind, body = before ++ (inner ++ behind) ∧
      node.info.start = info.start + byteLength (letters ++ mark ++ before) ∧
      node.info.stop = info.start + byteLength (letters ++ mark ++ (before ++ inner)) ∧
      node.text = String.ofList inner := by
  intro node hnode
  obtain ⟨front, token, rest, hsource, hstart, -, htoken⟩ := hcovers
  rw [htoken, String.toList_ofList] at htext
  have hbody : source = front ++ (letters ++ mark) ++ (body ++ (mark ++ rest)) := by
    rw [hsource, htext.text_eq]
    simp
  have hnodeCovers := h.covers node hnode
  rw [hbody] at hnodeCovers
  obtain ⟨hfirst, hlast⟩ := h.inside node hnode
  rw [hstart, ← byteLength_append, ← List.append_assoc] at hlast
  rw [hstart, ← byteLength_append] at hfirst
  obtain ⟨before, inner, behind, hpieces, hs, he, ht⟩ := hnodeCovers.inside hfirst hlast
  rw [List.append_assoc front, byteLength_append front, ← hstart] at hs he
  exact ⟨before, inner, behind, hpieces, hs, he, ht⟩

/-- String tokens are split without loss. Without an `f` in front, the string is the body as it
stands between the marks, with the flags that the letters say. With an `f`, the interpolations are
those among the node's children, in their order, and their texts with the literals between them make
up the body. -/
theorem string_split_without_loss {info : Info} {children : List Node}
    {letters mark body : List Char}
    (hkind : info.kind = "string") (htext : TokenText info.text.toList letters mark body) :
    (¬HasLetter letters 'f' 'F' → expression? (.node info () children) = some (.str
      ⟨String.ofList body, decide (HasLetter letters 'r' 'R'),
        decide (HasLetter letters 'b' 'B')⟩)) ∧
    (HasLetter letters 'f' 'F' → ∀ source, info.Covers source →
      InOrder source (info.start + byteLength (letters ++ mark))
        (info.start + byteLength (letters ++ mark ++ body)) (partsOf "interpolation" children) →
      (∀ node ∈ partsOf "interpolation" children, (interpolation? node).isSome = true) →
      ∃ parts, expression? (.node info () children) =
        some (.fstring parts (decide (HasLetter letters 'r' 'R'))) ∧
        (partsOf "interpolation" children).mapM interpolation? = some (interpolations parts) ∧
        Lossless parts ((partsOf "interpolation" children).map fun node =>
          node.text.toList) body) := by
  have hr : hasLetter letters 'r' = decide (HasLetter letters 'r' 'R') :=
    hasLetter_eq rfl (by decide) letters
  have hb : hasLetter letters 'b' = decide (HasLetter letters 'b' 'B') :=
    hasLetter_eq rfl (by decide) letters
  have hf : hasLetter letters 'f' = decide (HasLetter letters 'f' 'F') :=
    hasLetter_eq rfl (by decide) letters
  have hread : expression? (.node info () children) = readString info (children.map readTree) := by
    rw [expression?_eq]
    show readExpr info _ = _
    rw [readExpr, hkind]
    rfl
  rw [hread, readString]
  simp only [htext.stringLetters_eq, htext.bodyBounds_eq, hr, hb, hf]
  constructor
  · intro hno
    have hslice : Text.slice info.text.toList (byteLength (letters ++ mark))
        (byteLength (letters ++ mark ++ body)) = body := by
      rw [byteLength_append (letters ++ mark), htext.text_eq, ← List.append_assoc,
        Text.slice_append_append]
    rw [if_neg (by simpa using hno), hslice]
  · intro hyes source hcovers horder hsome
    obtain ⟨parts, hparts, hmap, hlossless⟩ :=
      fstringParts_lossless hsome (horder.pieces hcovers htext) horder.ordered
    refine ⟨parts, ?_, hmap, hlossless⟩
    rw [if_pos (by simpa using hyes), partsOf_readTree, htext.text_eq, hparts]
    rfl

/-- A raw f-string between triple quotes, behind a name. A character of two bytes stands in front of
two adjacent interpolations, and a quote behind them. -/
def quotedText : String :=
  "s = Rf'''é\x7ba\x7d\x7bb:>3\x7d\"'''"

/-- The node of the string. -/
def quotedInfo : Info :=
  Entry.info quotedText.toList ⟨"string", some "right", "n", 4, 24, 6⟩

/-- The nodes below it. -/
def quotedNodes : List Node :=
  (forestOfPreorder? quotedText.toList
    [⟨"string_start", none, "n", 4, 9, 0⟩,
      ⟨"string_content", none, "n", 9, 11, 0⟩,
      ⟨"interpolation", none, "n", 11, 14, 3⟩,
        ⟨"\x7b", none, "", 11, 12, 0⟩,
        ⟨"identifier", some "expression", "n", 12, 13, 0⟩,
        ⟨"\x7d", none, "", 13, 14, 0⟩,
      ⟨"interpolation", none, "n", 14, 20, 4⟩,
        ⟨"\x7b", none, "", 14, 15, 0⟩,
        ⟨"identifier", some "expression", "n", 15, 16, 0⟩,
        ⟨"format_specifier", none, "n", 16, 19, 0⟩,
        ⟨"\x7d", none, "", 19, 20, 0⟩,
      ⟨"string_content", none, "n", 20, 21, 0⟩,
      ⟨"string_end", none, "n", 21, 24, 0⟩]).getD []

theorem quotedNodes_split :
    ∃ parts, expression? (.node quotedInfo () quotedNodes) = some (.fstring parts true) ∧
    interpolations parts = [(.name "a", none), (.name "b", some ">3")] ∧
    Lossless parts ["\x7ba\x7d".toList, "\x7bb:>3\x7d".toList]
      "é\x7ba\x7d\x7bb:>3\x7d\"".toList := by
  have hcovers : quotedInfo.Covers quotedText.toList :=
    ⟨"s = ".toList, "Rf'''é\x7ba\x7d\x7bb:>3\x7d\"'''".toList,
      [], by decide, by decide, by decide, by decide +kernel⟩
  have htext : TokenText quotedInfo.text.toList ['R', 'f']
      ['\'', '\'', '\''] "é\x7ba\x7d\x7bb:>3\x7d\"".toList :=
    ⟨by decide +kernel, List.all_eq_true.1 (by decide), by decide, by intro q hq; cases hq⟩
  have hnodes : partsOf "interpolation" quotedNodes = [quotedNodes[2], quotedNodes[3]] := rfl
  have hfirst : quotedNodes[2].info.Covers quotedText.toList :=
    ⟨"s = Rf'''é".toList, "\x7ba\x7d".toList,
      "\x7bb:>3\x7d\"'''".toList, by decide, by decide, by decide, by decide +kernel⟩
  have hsecond : quotedNodes[3].info.Covers quotedText.toList :=
    ⟨"s = Rf'''é\x7ba\x7d".toList, "\x7bb:>3\x7d".toList,
      "\"'''".toList, by decide, by decide, by decide, by decide +kernel⟩
  have horder : InOrder quotedText.toList 9 21 (partsOf "interpolation" quotedNodes) := by
    rw [hnodes]
    refine ⟨?_, ?_, ?_⟩
    · simpa using ⟨hfirst, hsecond⟩
    · decide
    · decide
  have hread : ∀ node ∈ partsOf "interpolation" quotedNodes,
      (interpolation? node).isSome = true := by
    rw [hnodes]
    exact List.all_eq_true.1 rfl
  obtain ⟨parts, hread, hmap, hlossless⟩ :=
    (string_split_without_loss rfl htext).2 (by decide) quotedText.toList hcovers horder hread
  exact ⟨parts, hread, (Option.some.inj hmap).symm, hlossless⟩

end Reading

end PythonToCSharp
