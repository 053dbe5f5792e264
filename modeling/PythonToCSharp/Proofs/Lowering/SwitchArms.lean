import PythonToCSharp.Proofs.Comments.Lines
import PythonToCSharp.Proofs.Lowering.Balance

/-!
The arms of a switch.

A section gets a `break` of its own unless the case ends in a jump, which is read off the source.
What is written for such a case must end in a jump too, whatever the frame is: in a generator a
`return` becomes another one, and a `break` may have a line before it. `Arm` says what one section
has of its case, and the sections of a `match` are arms of its cases one by one.
-/

namespace PythonToCSharp.CSharp

/-- The lines behind which nothing of the same block runs. -/
inductive JumpLine : String → Prop where
  | break_ : JumpLine "break;"
  | continue_ : JumpLine "continue;"
  | yieldBreak : JumpLine "yield break;"
  | return_ : JumpLine "return;"
  | returnValue (value : Expr) : JumpLine ("return " ++ value.text ++ ";")
  | throw_ : JumpLine "throw;"
  | throwValue (value : Expr) : JumpLine ("throw " ++ value.text ++ ";")

theorem layoutAll_append (first rest : List Stmt) :
    layoutAll (first ++ rest) = layoutAll first ++ layoutAll rest := by
  induction first with
  | nil => rfl
  | cons s others ih => rw [List.cons_append, layoutAll, layoutAll, ih, List.append_assoc]

/-- The sections of a switch stand one behind the other, each a label over its statements. -/
theorem layoutSections_eq (sections : List Section) :
    layoutSections sections = sections.flatMap fun arm =>
      [.line arm.label.text, .deeper (layoutAll arm.body)] := by
  induction sections with
  | nil => rfl
  | cons arm rest ih =>
    obtain ⟨label, body⟩ := arm
    rw [layoutSections, ih, List.flatMap_cons]

end PythonToCSharp.CSharp

namespace PythonToCSharp.Lowering

open CSharp (JumpLine layoutAll)
open Layout (Node)

/-- The lines of comments. -/
def commentLines (texts : List String) : List Node :=
  texts.map fun text => .line ("// " ++ text)

/-- The lines end in a jump, apart from comments that stand for the last statements of a source. -/
def EndsInJump (source : List Python.Stmt) (lines : List Node) : Prop :=
  ∃ front jump texts, lines = front ++ .line jump :: commentLines texts ∧ JumpLine jump ∧
    texts.map Python.StmtKind.comment <:+ source.map Python.Stmt.kind

/-- What a section of a switch has of its case: the label for the pattern and the guard, and the
lines for the body, with no way to run on into the next section. -/
structure Arm (names : LibraryNames) (tupleSubject : Bool) (source : Python.MatchCase)
    (arm : CSharp.Section) : Prop where
  label : ∃ s, arm.label = (lowerLabel names tupleSubject source.pattern source.guard s).1
  body : ∃ s lowered after, lowerBlock names source.body s = .ok (lowered, after) ∧
    (arm.body = lowered ∨ arm.body = lowered ++ [.break_])
  ends : EndsInJump source.body (layoutAll arm.body)

/-! ## Blocks that end in a jump -/

/-- Behind the last jump of a block that ends in one stand comments only. -/
theorem exists_jump_of_endsInJump {body : List Python.Stmt} (h : endsInJump body = true) :
    ∃ front last comments, body = front ++ last :: comments ∧ isJump last.kind = true ∧
      ∀ s ∈ comments, isComment s.kind = true := by
  induction body with
  | nil => cases h
  | cons s rest ih =>
    by_cases hrest : endsInJump rest = true
    · obtain ⟨front, last, comments, rfl, hlast, hcomments⟩ := ih hrest
      exact ⟨s :: front, last, comments, rfl, hlast, hcomments⟩
    · -- the jump is the first statement, as it is none of the others
      cases hs : isComment s.kind with
      | true =>
        have hfilter : endsInJump (s :: rest) = endsInJump rest := by simp [endsInJump, hs]
        exact absurd (hfilter.symm.trans h) hrest
      | false =>
        have hkept : (s :: rest).filter (fun s => !isComment s.kind) = s :: rest.filter
            fun s => !isComment s.kind :=
          List.filter_cons_of_pos (by simp [hs])
        rw [endsInJump, hkept] at h
        cases hothers : rest.filter fun s => !isComment s.kind with
        | nil =>
          rw [hothers] at h
          refine ⟨[], s, rest, rfl, h, fun other hother => ?_⟩
          simpa using List.filter_eq_nil_iff.1 hothers other hother
        | cons other others =>
          rw [hothers, List.getLast?_cons_cons, ← hothers] at h
          exact absurd h hrest

variable (names : LibraryNames)

/-- Blocks one behind the other are lowered one behind the other. -/
theorem lowerBlock_append_run {first rest : List Python.Stmt} {s middle after : State}
    {lines others : Block}
    (hfirst : lowerBlock names first s = .ok (lines, middle))
    (hrest : lowerBlock names rest middle = .ok (others, after)) :
    lowerBlock names (first ++ rest) s = .ok (lines ++ others, after) := by
  induction first generalizing s lines with
  | nil =>
    cases hfirst
    exact hrest
  | cons stmt stmts ih =>
    obtain ⟨head, next, hhead, -⟩ := succeeds_lowerStmt names stmt s
    obtain ⟨tail, last, htail, -⟩ := succeeds_lowerBlock names stmts next
    have hrun : lowerBlock names (stmt :: stmts) s = .ok (head ++ tail, last) := by
      rw [lowerBlock, bind_run hhead, bind_run htail]
      rfl
    obtain ⟨rfl, rfl⟩ := run_unique hfirst hrun
    rw [List.cons_append, lowerBlock, bind_run hhead, bind_run (ih htail), List.append_assoc]
    rfl

/-- Comments are written as comments, and nothing else happens. -/
theorem lowerBlock_comments {comments : List Python.Stmt}
    (h : ∀ s ∈ comments, isComment s.kind = true) (s : State) :
    ∃ texts : List String, comments.map Python.Stmt.kind = texts.map Python.StmtKind.comment ∧
      lowerBlock names comments s = .ok (texts.map comment, s) := by
  induction comments with
  | nil => exact ⟨[], rfl, rfl⟩
  | cons stmt rest ih =>
    obtain ⟨hstmt, hrest⟩ := List.forall_mem_cons.1 h
    obtain ⟨texts, hkinds, hrun⟩ := ih hrest
    obtain ⟨kind, span⟩ := stmt
    cases kind with
    | comment text =>
      have hfirst : lowerStmt names ⟨.comment text, span⟩ s = .ok ([comment text], s) := rfl
      refine ⟨text :: texts, congrArg _ hkinds, ?_⟩
      rw [lowerBlock, bind_run hfirst, bind_run hrun]
      rfl
    | _ => cases hstmt

theorem layoutAll_map_comment (texts : List String) :
    layoutAll (texts.map comment) = commentLines texts := by
  have hblank :
      texts.map comment = (texts.map fun text => " " ++ text).map CSharp.Stmt.comment := by
    rw [List.map_map]
    rfl
  rw [hblank, layoutAll_comments, List.map_map, commentLines]
  refine List.map_congr_left fun text _ => ?_
  show Node.line ("//" ++ (" " ++ text)) = _
  rw [← String.append_assoc]
  rfl

/-- The lines that a step gives end in a jump. -/
def GivesJump (step : Render Block) : Prop :=
  ∀ s, ∃ front jump, layoutAll (step s).1 = front ++ [.line jump] ∧ JumpLine jump

namespace GivesJump

theorem pure {lines : Block} {front : List Node} {jump : String}
    (h : layoutAll lines = front ++ [.line jump])
    (hjump : JumpLine jump) : GivesJump (Pure.pure lines) :=
  fun _ => ⟨front, jump, h, hjump⟩

theorem behind {α : Type} {x : Render α} {f : α → Render Block} (h : ∀ a, GivesJump (f a)) :
    GivesJump (x >>= f) :=
  fun s => h (x s).1 (x s).2

end GivesJump

theorem givesJump_lowerBreak : GivesJump lowerBreak := by
  have hbreak : GivesJump (pure [.break_]) := @GivesJump.pure [.break_] [] _ rfl .break_
  refine .behind fun frame => ?_
  split
  next mark _ => exact @GivesJump.pure [_, .break_] [_] _ rfl .break_
  next => exact .behind fun _ => hbreak
  next => exact hbreak

theorem givesJump_lowerReturn (value : Option Python.Expr) :
    GivesJump (lowerReturn names value) := by
  have hyield : GivesJump (pure [.yieldBreak]) := @GivesJump.pure [.yieldBreak] [] _ rfl .yieldBreak
  refine .behind fun frame => ?_
  split
  · split
    · exact .behind fun _ => hyield
    · exact hyield
  · refine .behind fun value => ?_
    cases value with
    | none => exact @GivesJump.pure [.return_ none] [] _ rfl .return_
    | some value => exact @GivesJump.pure [.return_ (some value)] [] _ rfl (.returnValue value)

theorem givesJump_lowerRaise (exc cause : Option Python.Expr) :
    GivesJump (lowerRaise names exc cause) := by
  have hbare : GivesJump (pure [.throw_ none]) := @GivesJump.pure [.throw_ none] [] _ rfl .throw_
  have hthrow (exc : Python.Expr) :
      GivesJump (do return [.throw_ (some (← lowerException names exc))]) :=
    .behind fun value => @GivesJump.pure [.throw_ (some value)] [] _ rfl (.throwValue value)
  cases exc with
  | none =>
    cases cause with
    | none => exact hbare
    | some _ => exact .behind fun _ => hbare
  | some exc =>
    cases cause with
    | none => exact hthrow exc
    | some _ => exact .behind fun _ => hthrow exc

/-- What is written for a jump ends in one, by whatever frame it is written. -/
theorem lowerStmt_jump {stmt : Python.Stmt} (h : isJump stmt.kind = true) (s : State) :
    ∃ lines after front jump, lowerStmt names stmt s = .ok (lines, after) ∧
      layoutAll lines = front ++ [.line jump] ∧ JumpLine jump := by
  obtain ⟨kind, span⟩ := stmt
  have hlift {step : Render Block} (hstep : GivesJump step) : ∃ lines after front jump,
      located span (liftM step) s = .ok (lines, after) ∧ layoutAll lines = front ++ [.line jump] ∧
        JumpLine jump := by
    obtain ⟨front, jump, hlines, hjump⟩ := hstep { s with span := span }
    exact ⟨_, _, front, jump, rfl, hlines, hjump⟩
  cases kind with
  | returnStmt value => exact hlift (givesJump_lowerReturn names value)
  | raiseStmt exc cause => exact hlift (givesJump_lowerRaise names exc cause)
  | breakStmt => exact hlift givesJump_lowerBreak
  | continueStmt => exact ⟨_, _, [], _, rfl, rfl, .continue_⟩
  | _ => cases h

/-- A block that ends in a jump is written as lines that do. -/
theorem lowerBlock_endsInJump {body : List Python.Stmt} (h : endsInJump body = true)
    {s after : State} {lines : Block}
    (hrun : lowerBlock names body s = .ok (lines, after)) : EndsInJump body (layoutAll lines) := by
  obtain ⟨front, last, comments, rfl, hlast, hcomments⟩ := exists_jump_of_endsInJump h
  obtain ⟨before, middle, hbefore, -⟩ := succeeds_lowerBlock names front s
  obtain ⟨jumps, next, start, jump, hjumps, hstart, hjump⟩ := lowerStmt_jump names hlast middle
  obtain ⟨texts, htexts, hbehind⟩ := lowerBlock_comments names hcomments next
  have hlater :
      lowerBlock names (last :: comments) middle = .ok (jumps ++ texts.map comment, next) := by
    rw [lowerBlock, bind_run hjumps, bind_run hbehind]
    rfl
  obtain ⟨rfl, rfl⟩ := run_unique hrun (lowerBlock_append_run names hbefore hlater)
  refine ⟨layoutAll before ++ start, jump, texts, ?_, hjump, ?_⟩
  · rw [CSharp.layoutAll_append, CSharp.layoutAll_append, hstart, layoutAll_map_comment]
    simp
  · rw [List.map_append, List.map_cons, htexts]
    exact ⟨front.map Python.Stmt.kind ++ [last.kind], by simp⟩

/-- The body of a section ends in a jump: in that of the case, or in a `break` put behind. -/
theorem sectionBody_endsInJump {body : List Python.Stmt} {s after : State} {lines : Block}
    (hrun : lowerBlock names body s = .ok (lines, after)) :
    EndsInJump body (layoutAll (sectionBody body lines)) := by
  unfold sectionBody
  split
  next h => exact lowerBlock_endsInJump names h hrun
  next =>
    refine ⟨layoutAll lines, "break;", [], ?_, .break_, List.nil_suffix⟩
    rw [CSharp.layoutAll_append]
    rfl

/-! ## The cases of a match -/

theorem arm_lowerCase (tupleSubject : Bool) (source : Python.MatchCase) (s : State)
    {s' after : State} {lines : Block}
    (hrun : lowerBlock names source.body s' = .ok (lines, after)) :
    Arm names tupleSubject source
      ⟨(lowerLabel names tupleSubject source.pattern source.guard s).1,
        sectionBody source.body lines⟩ where
  label := ⟨s, rfl⟩
  body := by
    refine ⟨s', lines, after, hrun, ?_⟩
    unfold sectionBody
    split
    · exact .inl rfl
    · exact .inr rfl
  ends := sectionBody_endsInJump names hrun

/-- The cases are lowered one by one, each to an arm of its own. -/
theorem lowerCases_arms (tupleSubject : Bool) (cases : List Python.MatchCase) (s : State) :
    ∃ sections after, lowerCases names tupleSubject cases s = .ok (sections, after) ∧
      List.Forall₂ (Arm names tupleSubject) cases sections := by
  induction cases generalizing s with
  | nil => exact ⟨[], s, rfl, .nil⟩
  | cons source rest ih =>
    obtain ⟨pattern, guard, body, span⟩ := source
    obtain ⟨lines, middle, hbody, -⟩ :=
      succeeds_lowerBlock names body
        (lowerLabel names tupleSubject pattern guard { s with span := span }).2
    obtain ⟨sections, after, hrest, harms⟩ := ih middle
    have harm := arm_lowerCase names tupleSubject ⟨pattern, guard, body, span⟩
      { s with span := span } hbody
    refine ⟨_, after, ?_, .cons harm harms⟩
    rw [lowerCases, lift_bind_run, lift_bind_run]
    exact (bind_run hbody).trans (bind_run hrest)

/-- A `match` is one switch over the sections that its cases are lowered to. -/
theorem lowerMatch_run (subject : Python.Expr) {step : Lower (List CSharp.Section)}
    {P : List CSharp.Section → Prop}
    (h : ∀ s, ∃ sections after, step s = .ok (sections, after) ∧ P sections) (s : State) :
    ∃ value sections after, lowerMatch names subject step s =
      .ok ([.switch value sections], after) ∧ P sections := by
  obtain ⟨sections, middle, hstep, hP⟩ :=
    h ((modifyFrame (·.pushBreakTarget .switch)) (lowerExpr names subject s).2).2
  refine ⟨(lowerExpr names subject s).1, sections,
    (modifyFrame (·.popBreakTarget) middle).2, ?_, hP⟩
  rw [lowerMatch, lift_bind_run, breakable]
  refine bind_run (a := sections) ?_
  rw [lift_bind_run]
  exact bind_run hstep

/-- A `match` becomes a switch with one section for each case, in the order of the source. No
section runs on into the next: it ends in a jump, in whatever function the `match` stands and
whatever the case holds. -/
theorem switch_arms_ordered_and_closed (subject : Python.Expr) (cases : List Python.MatchCase)
    (span : Python.Span) (s : State) :
    ∃ value sections after, lowerStmt names ⟨.matchBlock subject cases, span⟩ s =
      .ok ([.switch value sections], after) ∧
      (CSharp.Stmt.switch value sections).layout = [.line ("switch (" ++ value.text ++ ")"),
        .block (sections.flatMap fun arm => [.line arm.label.text, .deeper (layoutAll arm.body)])] ∧
      List.Forall₂ (Arm names (isTuple subject)) cases sections := by
  obtain ⟨value, sections, after, hrun, harms⟩ :=
    lowerMatch_run names subject (lowerCases_arms names (isTuple subject) cases)
      { s with span := span }
  refine ⟨value, sections, { after with span := s.span }, located_eq hrun, ?_, harms⟩
  rw [CSharp.Stmt.layout, CSharp.layoutSections_eq]

end PythonToCSharp.Lowering
