import Mathlib.Tactic.SplitIfs
import PythonToCSharp.CSharp.Literal

/-!
Where string literals end.

`untilQuote` and `untilLoneQuote` look for the closing quote of a regular and of a verbatim string,
behind the opening one. For every body, the quote that they find is the last character of the
literal.
-/

namespace PythonToCSharp.CSharp

open Python (StringLiteral)

/-! ## The escaper, step by step -/

/-- A character that no backslash stands before, as it is written. -/
def writtenChar (c : Char) : List Char :=
  if c = '"' then ['\\', '"']
  else if c = '\n' then ['\\', 'n']
  else if c = '\r' then ['\\', 'r']
  else if c = '\t' then ['\\', 't']
  else [c]

/-- A backslash and the character behind it, as they are written. -/
def writtenEscape (c : Char) : List Char :=
  if c = '\'' then ['\''] else if c = '\n' then [] else ['\\', c]

theorem escapeBody_cons {c : Char} (hc : c ≠ '\\') (cs : List Char) :
    escapeBody (c :: cs) = writtenChar c ++ escapeBody cs := by
  rw [escapeBody.eq_4 c cs (fun h _ => hc h) (fun _ _ h _ => hc h)]
  unfold writtenChar
  split_ifs <;> rfl

theorem escapeBody_backslash (c : Char) (cs : List Char) :
    escapeBody ('\\' :: c :: cs) = writtenEscape c ++ escapeBody cs := by
  rw [escapeBody.eq_3]
  unfold writtenEscape
  split_ifs <;> rfl

/-- Bodies as the escaper goes through them. -/
theorem body_induction {motive : List Char → Prop} (nil : motive []) (lone : motive ['\\'])
    (backslash : ∀ c cs, motive cs → motive ('\\' :: c :: cs))
    (plain : ∀ c cs, c ≠ '\\' → motive cs → motive (c :: cs)) (body : List Char) : motive body := by
  induction body using escapeBody.induct with
  | case1 => exact nil
  | case2 => exact lone
  | case3 cs ih => exact backslash _ cs ih
  | case4 cs _ ih => exact backslash _ cs ih
  | case5 c cs _ _ ih => exact backslash c cs ih
  | case6 cs _ _ ih => exact plain _ cs (by decide) ih
  | case7 cs _ _ _ ih => exact plain _ cs (by decide) ih
  | case8 cs _ _ _ _ ih => exact plain _ cs (by decide) ih
  | case9 cs _ _ _ _ _ ih => exact plain _ cs (by decide) ih
  | case10 c cs hlone hpair _ _ _ _ ih =>
    refine plain c cs ?_ ih
    rintro rfl
    cases cs with
    | nil => exact hlone rfl rfl
    | cons next rest => exact hpair next rest rfl rfl

/-! ## Regular strings -/

/-- What stands before the first quote that no backslash takes with it, and what stands behind that
quote. -/
def untilQuote : List Char → Option (List Char × List Char)
  | [] => none
  | ['\\'] => none
  | '\\' :: c :: rest => (untilQuote rest).map fun (front, back) => ('\\' :: c :: front, back)
  | c :: rest =>
    if c = '"' then some ([], rest) else (untilQuote rest).map fun (front, back) =>
      (c :: front, back)

/-- The scanner goes on behind these characters as if it started there. -/
def Passed (front : List Char) : Prop :=
  ∀ rest, untilQuote (front ++ rest) = (untilQuote rest).map fun (content, back) =>
    (front ++ content, back)

namespace Passed

theorem nil : Passed [] :=
  fun rest => by simp

theorem append {front next : List Char} (hf : Passed front) (hn : Passed next) :
    Passed (front ++ next) := by
  intro rest
  rw [List.append_assoc, hf, hn, Option.map_map]
  simp [Function.comp_def]

theorem escape (c : Char) : Passed ['\\', c] :=
  fun _ => rfl

theorem plain {c : Char} (hb : c ≠ '\\') (hq : c ≠ '"') : Passed [c] := by
  intro rest
  rw [List.singleton_append, untilQuote.eq_4 c rest (fun h _ => hb h) (fun _ _ h _ => hb h),
    if_neg hq]
  rfl

theorem writtenChar {c : Char} (hc : c ≠ '\\') : Passed (writtenChar c) := by
  unfold CSharp.writtenChar
  split_ifs with hquote
  · exact escape _
  · exact escape _
  · exact escape _
  · exact escape _
  · exact plain hc hquote

theorem writtenEscape (c : Char) : Passed (writtenEscape c) := by
  unfold CSharp.writtenEscape
  split_ifs
  · exact plain (by decide) (by decide)
  · exact nil
  · exact escape c

/-- The escaper and the scanner take the same steps. Only a backslash at the end is a step of the
escaper alone, and it is written twice. -/
theorem escapeBody (body : List Char) : Passed (escapeBody body) := by
  induction body using body_induction with
  | nil => exact nil
  | lone => exact escape _
  | backslash c cs ih =>
    rw [escapeBody_backslash]
    exact (writtenEscape c).append ih
  | plain c cs hc ih =>
    rw [escapeBody_cons hc]
    exact (writtenChar hc).append ih

end Passed

theorem lineFeed_notMem_escapeBody (body : List Char) : '\n' ∉ escapeBody body := by
  induction body using body_induction with
  | nil => exact List.not_mem_nil
  | lone => decide
  | backslash c cs ih =>
    rw [escapeBody_backslash, List.mem_append, not_or]
    refine ⟨?_, ih⟩
    unfold writtenEscape
    split_ifs with hquote hfeed
    · decide
    · exact List.not_mem_nil
    · simp [Ne.symm hfeed]
  | plain c cs hc ih =>
    rw [escapeBody_cons hc, List.mem_append, not_or]
    refine ⟨?_, ih⟩
    unfold writtenChar
    split_ifs with _ hfeed
    · decide
    · decide
    · decide
    · decide
    · simp [Ne.symm hfeed]

/-! ## Verbatim strings -/

/-- The content before the first quote that does not stand twice, with one quote for two, and what
stands behind. -/
def untilLoneQuote : List Char → Option (List Char × List Char)
  | [] => none
  | '"' :: '"' :: rest => (untilLoneQuote rest).map fun (front, back) => ('"' :: front, back)
  | c :: rest =>
    if c = '"' then some ([], rest) else (untilLoneQuote rest).map fun (front, back) =>
      (c :: front, back)

theorem untilLoneQuote_plain {c : Char} (hc : c ≠ '"') (rest : List Char) :
    untilLoneQuote (c :: rest) = (untilLoneQuote rest).map fun (front, back) =>
      (c :: front, back) := by
  rw [untilLoneQuote.eq_3 c rest (fun _ h _ => hc h), if_neg hc]

theorem untilLoneQuote_doubleQuotes (body : List Char) :
    untilLoneQuote (doubleQuotes body ++ ['"']) = some (body, []) := by
  induction body with
  | nil => rfl
  | cons c cs ih =>
    by_cases hc : c = '"'
    · subst hc
      show (untilLoneQuote (doubleQuotes cs ++ ['"'])).map _ = _
      rw [ih]
      rfl
    · rw [doubleQuotes, if_neg hc, List.cons_append, untilLoneQuote_plain hc, ih]
      rfl

/-! ## Literals -/

/-- Between quotes, the segment is one string as far as quotes go. A verbatim one stands for the
body, a regular one stays on its line. -/
def Enclosed (raw : Bool) (body segment : List Char) : Prop :=
  if raw then untilLoneQuote (segment ++ ['"']) = some (body, [])
  else untilQuote (segment ++ ['"']) = some (segment, []) ∧ '\n' ∉ segment

theorem enclosed_interpolatedSegment (body : String) (raw : Bool) :
    Enclosed raw body.toList (interpolatedSegment body raw).toList := by
  cases raw with
  | true =>
    have hsegment : (interpolatedSegment body true).toList = doubleQuotes body.toList :=
      String.toList_ofList
    show untilLoneQuote _ = _
    rw [hsegment, untilLoneQuote_doubleQuotes]
  | false =>
    have hsegment : (interpolatedSegment body false).toList = escapeBody body.toList :=
      String.toList_ofList
    show untilQuote _ = _ ∧ _
    rw [hsegment]
    refine ⟨?_, lineFeed_notMem_escapeBody _⟩
    rw [Passed.escapeBody body.toList ['"']]
    simp [untilQuote]

/-- What opens a string literal. -/
def opening (raw : Bool) : List Char :=
  if raw then ['@', '"'] else ['"']

/-- No string breaks out of its literal: whatever the body is, the text of a string literal ends
with the quote that closes it, and so does the text of an interpolated segment between quotes. A
regular one has no line feed, and a verbatim one stands for the body. -/
theorem string_closes_at_end (literal : StringLiteral) :
    (∃ segment, (stringLiteral literal).toList = opening literal.raw ++ segment ++ ['"'] ∧
      Enclosed literal.raw literal.body.toList segment) ∧
    ∀ (body : String) (raw : Bool), Enclosed raw body.toList
      (interpolatedSegment body raw).toList := by
  refine ⟨⟨_, ?_, enclosed_interpolatedSegment literal.body literal.raw⟩,
    enclosed_interpolatedSegment⟩
  simp only [stringLiteral, String.toList_append]
  cases literal.raw <;> rfl

end PythonToCSharp.CSharp
