import PythonToCSharp.Lowering.Statement
import PythonToCSharp.Proofs.Layout.Buffers

/-!
The physical lines of printed comments.

A line of the layout is one physical line only as long as its text has no line feed. A comment whose
text goes on behind one is printed with a single pair of slashes, so the rest of it is a comment
only by chance. The text of a string that stands alone and of a statement without a counterpart is
split before slashes are put in front, and is safe.
-/

namespace PythonToCSharp

namespace Text

/-! ## Pieces -/

section Pieces

variable {mark : Char}

theorem piecesFrom_append_mark (piece cs rest : List Char) :
    piecesFrom mark piece (cs ++ mark :: rest) = piecesFrom mark piece cs ++
      piecesFrom mark [] rest := by
  induction cs generalizing piece with
  | nil => simp [piecesFrom]
  | cons c cs ih =>
    rw [List.cons_append, piecesFrom, piecesFrom]
    split
    · rw [ih, List.cons_append]
    · exact ih _

/-- What was read before belongs to the first piece. -/
theorem piecesFrom_eq_cons (mark : Char) (cs : List Char) : ∃ first rest, ∀ piece,
    piecesFrom mark piece cs = (piece ++ first) :: rest := by
  induction cs with
  | nil => exact ⟨[], [], fun piece => by rw [piecesFrom, List.append_nil]⟩
  | cons c cs ih =>
    obtain ⟨first, rest, hcs⟩ := ih
    by_cases hc : c = mark
    · exact ⟨[], first :: rest, fun piece => by simp [piecesFrom, hc, hcs]⟩
    · exact ⟨c :: first, rest, fun piece => by simp [piecesFrom, hc, hcs]⟩

theorem piecesFrom_front {front : List Char} (h : mark ∉ front) (piece cs : List Char) :
    piecesFrom mark piece (front ++ cs) = piecesFrom mark (piece ++ front) cs := by
  induction front generalizing piece with
  | nil => simp
  | cons c front ih =>
    have hc : c ≠ mark := fun heq => h (heq ▸ List.mem_cons_self)
    rw [List.cons_append, piecesFrom, if_neg hc, ih (fun hmem => h (List.mem_cons_of_mem c hmem)),
      List.append_assoc]
    rfl

end Pieces

/-- Behind the end of a line the pieces begin anew. -/
theorem pieces_line (line rest : String) :
    pieces '\n' (line ++ "\n" ++ rest) = pieces '\n' line ++ pieces '\n' rest := by
  have hchars : (line ++ "\n" ++ rest).toList = line.toList ++ '\n' :: rest.toList := by simp
  rw [pieces, hchars, piecesFrom_append_mark, List.map_append]
  rfl

theorem pieces_ne_nil (text : String) : pieces '\n' text ≠ [] := by
  obtain ⟨first, rest, hpieces⟩ := piecesFrom_eq_cons '\n' text.toList
  rw [pieces, hpieces]
  exact List.cons_ne_nil _ _

/-- Something in front only makes the first piece longer. -/
theorem pieces_front {front : String} (h : '\n' ∉ front.toList) (text : String) :
    ∃ first, pieces '\n' (front ++ text) = (front ++ first) :: (pieces '\n' text).tail := by
  obtain ⟨first, rest, hpieces⟩ := piecesFrom_eq_cons '\n' text.toList
  refine ⟨String.ofList first, ?_⟩
  rw [pieces, String.toList_append, piecesFrom_front h, hpieces, pieces, hpieces, List.map_cons,
    List.map_cons, List.tail_cons, List.nil_append, String.ofList_append, String.ofList_toList]

theorem tail_pieces {text : String} (h : '\n' ∉ text.toList) : (pieces '\n' text).tail = [] := by
  have hpieces := piecesFrom_front h [] []
  rw [List.append_nil] at hpieces
  rw [pieces, hpieces]
  rfl

/-! ## Lines and blanks -/

theorem newline_not_mem_linesFrom {line cs : List Char} (h : '\n' ∉ line) :
    ∀ l ∈ linesFrom line cs, '\n' ∉ l := by
  induction cs generalizing line with
  | nil =>
    rw [linesFrom]
    split
    · simp
    · simpa using h
  | cons c cs ih =>
    rw [linesFrom]
    split
    · rw [List.forall_mem_cons]
      refine ⟨fun hmem => h ?_, ih List.not_mem_nil⟩
      have hdropped := List.mem_reverse.1 hmem
      unfold dropReturn at hdropped
      split at hdropped
      · exact List.mem_cons_of_mem _ hdropped
      · exact hdropped
    · next hc => exact ih fun hmem => (List.mem_cons.1 hmem).elim (fun heq => hc heq.symm) h

/-- A line has no line feed. -/
theorem newline_not_mem_lines {text line : String} (h : line ∈ lines text) :
    '\n' ∉ line.toList := by
  obtain ⟨chars, hchars, rfl⟩ := List.mem_map.1 h
  rw [String.toList_ofList]
  exact newline_not_mem_linesFrom List.not_mem_nil chars hchars

theorem mem_of_mem_trimChars {c : Char} {cs : List Char} (h : c ∈ trimChars cs) : c ∈ cs := by
  have hinner := (List.dropWhile_sublist _).subset (List.mem_reverse.1 h)
  exact (List.dropWhile_sublist _).subset (List.mem_reverse.1 hinner)

end Text

namespace Layout

open Text (pieces)

/-! ## Comments -/

/-- Whether a physical line is a comment: behind its blanks come two slashes. -/
def isCommentLine (line : String) : Bool :=
  ['/', '/'].isPrefixOf (line.toList.dropWhile Text.isBlank)

/-- All physical lines of a text are comments. Behind the last line feed there is no line. -/
def Commented (text : String) : Prop :=
  ∀ line ∈ (pieces '\n' text).dropLast, isCommentLine line = true

/-- A text goes on, behind a line feed in it, with a line that is no comment. -/
def ContinuesAsCode (text : String) : Prop :=
  ∃ line ∈ (pieces '\n' text).tail, isCommentLine line = false

instance (text : String) : Decidable (Commented text) :=
  inferInstanceAs (Decidable (∀ line ∈ (pieces '\n' text).dropLast, isCommentLine line = true))

instance (text : String) : Decidable (ContinuesAsCode text) :=
  inferInstanceAs (Decidable (∃ line ∈ (pieces '\n' text).tail, isCommentLine line = false))

theorem not_continuesAsCode {text : String} (h : '\n' ∉ text.toList) : ¬ContinuesAsCode text := by
  rintro ⟨line, hline, -⟩
  rw [Text.tail_pieces h] at hline
  cases hline

/-- What stands before a text on its first line does not matter for how it goes on. -/
theorem continuesAsCode_front {front : String} (h : '\n' ∉ front.toList) (text : String) :
    ContinuesAsCode (front ++ text) ↔ ContinuesAsCode text := by
  obtain ⟨first, hpieces⟩ := Text.pieces_front h text
  rw [ContinuesAsCode, hpieces, List.tail_cons, ContinuesAsCode]

theorem commented_line (line rest : String) :
    Commented (line ++ "\n" ++ rest) ↔ (∀ piece ∈ pieces '\n' line, isCommentLine piece = true) ∧
      Commented rest := by
  rw [Commented, Text.pieces_line, List.dropLast_append_of_ne_nil (Text.pieces_ne_nil rest),
    List.forall_mem_append]
  rfl

theorem isCommentLine_slashes (width level : Nat) (text : String) :
    isCommentLine (indentation width level ++ "//" ++ text) = true := by
  have hblanks : ∀ c ∈ List.replicate (width * level) ' ', Text.isBlank c = true := by
    intro c hc
    rw [List.eq_of_mem_replicate hc]
    decide
  have hchars : (indentation width level ++ "//" ++ text).toList =
      List.replicate (width * level) ' ' ++ ('/' :: '/' :: text.toList) := by
    simp [indentation]
  rw [isCommentLine, hchars, List.dropWhile_append_of_pos hblanks]
  rfl

/-- One line of comment is made of comments unless its text goes on as code. -/
theorem commented_lineText (width level : Nat) (text rest : String) :
    Commented (lineText width level ("//" ++ text) ++ rest) ↔ ¬ContinuesAsCode text ∧
      Commented rest := by
  have hline : lineText width level ("//" ++ text) = indentation width level ++ "//" ++
      text ++ "\n" := by
    rw [lineText, if_neg (by simp)]
    simp only [String.append_assoc]
  have hfront : '\n' ∉ (indentation width level ++ "//").toList := by
    simp [indentation]
  obtain ⟨first, hpieces⟩ := Text.pieces_front hfront text
  rw [hline, commented_line, hpieces, List.forall_mem_cons, ContinuesAsCode]
  simp [isCommentLine_slashes]

/-- Lines of comment are made of comments unless one of their texts goes on as code. -/
theorem commented_lines (width level : Nat) (texts : List String) :
    Commented (printAll width level (texts.map fun text => .line ("//" ++ text))) ↔
      ∀ text ∈ texts, ¬ContinuesAsCode text := by
  induction texts with
  | nil => simp [printAll, Commented, pieces, Text.piecesFrom]
  | cons text rest ih => rw [List.map_cons, printAll, Node.print, commented_lineText, ih,
      List.forall_mem_cons]

end Layout

namespace Lowering

open CSharp (decoratorLines layoutAll)
open Layout

/-- The layout of comments. -/
theorem layoutAll_comments (texts : List String) :
    layoutAll (texts.map CSharp.Stmt.comment) = texts.map fun text => .line ("//" ++ text) := by
  induction texts with
  | nil => rfl
  | cons text rest ih => rw [List.map_cons, layoutAll, ih, CSharp.Stmt.layout, List.map_cons,
      List.singleton_append]

/-- The texts of the comments for a string that stands alone. -/
def docTexts (body : String) : List String :=
  (Text.lines (Text.trim body)).map fun line =>
    if (Text.trim line).isEmpty then "" else " " ++ Text.trim line

theorem docComment_eq (body : String) :
    docComment body = (docTexts body).map CSharp.Stmt.comment := by
  rw [docComment, docTexts, List.map_map]
  refine List.map_congr_left fun line _ => ?_
  unfold docLine comment
  dsimp only [Function.comp_apply]
  split <;> rfl

/-- A string that stands alone becomes comments. -/
theorem commented_docComment (width level : Nat) (body : String) :
    Commented (printAll width level (layoutAll (docComment body))) := by
  rw [docComment_eq, layoutAll_comments, commented_lines]
  intro text htext
  obtain ⟨line, hline, rfl⟩ := List.mem_map.1 htext
  have htrim : '\n' ∉ (Text.trim line).toList := by
    rw [Text.trim, String.toList_ofList]
    exact fun hmem => Text.newline_not_mem_lines hline (Text.mem_of_mem_trimChars hmem)
  split
  · exact not_continuesAsCode (by simp)
  · rw [continuesAsCode_front (by decide)]
    exact not_continuesAsCode htrim

/-- A comment of the source stays one unless it goes on as code. -/
theorem commented_comment (width level : Nat) (text : String) :
    Commented (printAll width level (layoutAll [comment text])) ↔ ¬ContinuesAsCode text := by
  have h := commented_lines width level [" " ++ text]
  rw [← layoutAll_comments] at h
  rw [show [comment text] = [" " ++ text].map CSharp.Stmt.comment from rfl, h,
    List.forall_mem_singleton, continuesAsCode_front (by decide)]

/-- A statement without a counterpart becomes comments, if its kind is written on one line. -/
theorem commented_keptAsComment (width level : Nat) {kind : String} (h : '\n' ∉ kind.toList)
    (text : String) : Commented (printAll width level (layoutAll (keptAsComment kind text))) := by
  have hfront : '\n' ∉ ("unsupported " ++ kind ++ ": ").toList := by
    simp [h]
  have hline {line : String} (hline : line ∈ Text.lines text) : '\n' ∉ line.toList :=
    Text.newline_not_mem_lines hline
  have htexts : ∃ texts : List String, keptAsComment kind text = texts.map CSharp.Stmt.comment ∧
      ∀ text ∈ texts, ¬ContinuesAsCode text := by
    unfold keptAsComment
    split
    · refine ⟨[" " ++ ("unsupported " ++ kind ++ ": ")], rfl, ?_⟩
      rw [List.forall_mem_singleton, continuesAsCode_front (by decide)]
      exact not_continuesAsCode hfront
    · next first rest hlines =>
      rw [hlines] at hline
      refine ⟨(" " ++ ("unsupported " ++ kind ++ ": " ++ first)) :: rest.map (" " ++ ·), ?_, ?_⟩
      · rw [List.map_cons, List.map_map]
        rfl
      · rw [List.forall_mem_cons, List.forall_mem_map, continuesAsCode_front (by decide),
          continuesAsCode_front hfront]
        refine ⟨not_continuesAsCode (hline List.mem_cons_self), fun line hmem => ?_⟩
        rw [continuesAsCode_front (by decide)]
        exact not_continuesAsCode (hline (List.mem_cons_of_mem _ hmem))
  obtain ⟨texts, hkept, hall⟩ := htexts
  rwa [hkept, layoutAll_comments, commented_lines]

/-- The lines for decorators are made of comments unless one of them goes on as code. -/
theorem commented_decoratorLines (width level : Nat) (decorators : List CSharp.Expr) :
    Commented (printAll width level (decoratorLines decorators)) ↔
      ∀ decorator ∈ decorators, ¬ContinuesAsCode decorator.text := by
  have hlines : decoratorLines decorators =
      (decorators.map fun decorator => " @" ++ decorator.text).map fun text =>
        Node.line ("//" ++ text) := by
    rw [decoratorLines, List.map_map]
    refine List.map_congr_left fun decorator _ => ?_
    show Node.line ("// @" ++ decorator.text) = Node.line ("//" ++ (" @" ++ decorator.text))
    rw [← String.append_assoc]
    rfl
  rw [hlines, commented_lines, List.forall_mem_map]
  refine forall_congr' fun decorator => imp_congr_right fun _ => not_congr ?_
  exact continuesAsCode_front (by decide) _

end Lowering

end PythonToCSharp
