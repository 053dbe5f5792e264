import PythonToCSharp.Proofs.Lowering.PlainLines

/-!
The lines of a body's own blocks, and what is picked from them.

`ownLines` goes through the blocks of a body without entering the functions and types in it. A
`Pick` chooses among lines that leave the function or define something, so what it finds in a
compound statement is what it finds in the blocks.
-/

namespace PythonToCSharp.CSharp

mutual

/-- The statement and the statements of its blocks, in preorder. Functions and types in it have
their own. -/
def Stmt.own : Stmt → List Stmt
  | .ifElse branches otherwise => .ifElse branches otherwise ::
      (ownBranches branches ++ ownOptional otherwise)
  | .whileLoop test body => .whileLoop test body :: ownLines body
  | .forEach isAsync item source body => .forEach isAsync item source body :: ownLines body
  | .tryCatch body catches cleanup =>
    .tryCatch body catches cleanup :: (ownLines body ++ (ownCatches catches ++ ownOptional cleanup))
  | .using_ isAsync resources body => .using_ isAsync resources body :: ownLines body
  | .switch subject sections => .switch subject sections :: ownSections sections
  | s => [s]

/-- The statements of a body's own blocks, in preorder. -/
def ownLines : List Stmt → List Stmt
  | [] => []
  | s :: rest => s.own ++ ownLines rest

/-- The statements of a block that may be missing. -/
def ownOptional : Option (List Stmt) → List Stmt
  | none => []
  | some body => ownLines body

/-- The statements of the branches of a conditional. -/
def ownBranches : List Branch → List Stmt
  | [] => []
  | ⟨_, body⟩ :: rest => ownLines body ++ ownBranches rest

/-- The statements of catch clauses. -/
def ownCatches : List Catch → List Stmt
  | [] => []
  | ⟨_, body⟩ :: rest => ownLines body ++ ownCatches rest

/-- The statements of the sections of a switch. -/
def ownSections : List Section → List Stmt
  | [] => []
  | ⟨_, body⟩ :: rest => ownLines body ++ ownSections rest

end

/-- Whether a statement leaves the function around it or defines something. -/
def Stmt.isNotable : Stmt → Bool
  | .return_ _ => true
  | .yieldReturn _ => true
  | .yieldBreak => true
  | .function _ => true
  | .type _ => true
  | _ => false

/-- A choice among statements that passes over all but notable ones. -/
structure Pick (γ : Type) where
  choose : Stmt → Option γ
  passes : ∀ s : Stmt, s.isNotable = false → choose s = none

namespace Pick

variable {γ : Type} (pick : Pick γ)

/-- What is picked from lines. -/
def among (lines : List Stmt) : List γ :=
  lines.filterMap pick.choose

/-- What is picked from a body's own blocks. -/
def inside (block : List Stmt) : List γ :=
  pick.among (ownLines block)

theorem among_append (first rest : List Stmt) :
    pick.among (first ++ rest) = pick.among first ++ pick.among rest :=
  List.filterMap_append

theorem among_cons_passed {s : Stmt} (h : s.isNotable = false) (rest : List Stmt) :
    pick.among (s :: rest) = pick.among rest :=
  List.filterMap_cons_none (pick.passes s h)

@[simp] theorem inside_nil : pick.inside [] = [] := rfl

@[simp] theorem inside_cons (s : Stmt) (rest : List Stmt) :
    pick.inside (s :: rest) = pick.among s.own ++ pick.inside rest :=
  pick.among_append _ _

@[simp] theorem inside_append (first rest : List Stmt) :
    pick.inside (first ++ rest) = pick.inside first ++ pick.inside rest := by
  induction first with
  | nil => rfl
  | cons s others ih => rw [List.cons_append, inside_cons, ih, inside_cons, List.append_assoc]

/-- Nothing is picked from a plain line. -/
theorem among_own_plain {s : Stmt} (h : s.isPlain = true) : pick.among s.own = [] := by
  cases s with
  | expr | empty | assign | augment | comment | throw_ | break_
  | continue_ => exact pick.among_cons_passed rfl []
  | _ => cases h

theorem inside_plain {block : List Stmt} (h : ∀ line ∈ block, line.isPlain = true) :
    pick.inside block = [] := by
  induction block with
  | nil => rfl
  | cons s rest ih =>
    rw [inside_cons, pick.among_own_plain (h s List.mem_cons_self),
      ih fun line hline => h line (List.mem_cons_of_mem s hline)]
    rfl

/-! What is picked from a compound statement is picked from its blocks. -/

section Compound

variable (body : List Stmt)

@[simp] theorem among_own_flag (name : String) (value : Bool) :
    pick.among (Stmt.flag name value).own = [] :=
  pick.among_cons_passed rfl []

@[simp] theorem among_own_assign (target value : Expr) :
    pick.among (Stmt.assign target value).own = [] :=
  pick.among_cons_passed rfl []

@[simp] theorem among_own_ifElse (branches : List Branch) (otherwise : Option (List Stmt)) :
    pick.among (Stmt.ifElse branches otherwise).own =
      pick.among (ownBranches branches) ++ pick.among (ownOptional otherwise) :=
  (pick.among_cons_passed rfl _).trans (pick.among_append _ _)

@[simp] theorem among_own_whileLoop (test : Expr) :
    pick.among (Stmt.whileLoop test body).own = pick.inside body :=
  pick.among_cons_passed rfl _

@[simp] theorem among_own_forEach (isAsync : Bool) (item : String) (source : Expr) :
    pick.among (Stmt.forEach isAsync item source body).own = pick.inside body :=
  pick.among_cons_passed rfl _

@[simp] theorem among_own_tryCatch (catches : List Catch) (cleanup : Option (List Stmt)) :
    pick.among (Stmt.tryCatch body catches cleanup).own =
      pick.inside body ++ (pick.among (ownCatches catches) ++
        pick.among (ownOptional cleanup)) := by
  rw [Stmt.own, pick.among_cons_passed rfl, among_append, among_append, inside]

@[simp] theorem among_own_using (isAsync : Bool) (resources : List Resource) :
    pick.among (Stmt.using_ isAsync resources body).own = pick.inside body :=
  pick.among_cons_passed rfl _

@[simp] theorem among_own_switch (subject : Expr) (sections : List Section) :
    pick.among (Stmt.switch subject sections).own = pick.among (ownSections sections) :=
  pick.among_cons_passed rfl _

@[simp] theorem among_ownOptional_none : pick.among (ownOptional none) = [] := rfl

@[simp] theorem among_ownOptional_some : pick.among (ownOptional (some body)) = pick.inside body :=
  rfl

@[simp] theorem among_ownBranches_nil : pick.among (ownBranches []) = [] := rfl

@[simp] theorem among_ownBranches_cons (test : Expr) (rest : List Branch) :
    pick.among (ownBranches (⟨test, body⟩ :: rest)) = pick.inside body ++
      pick.among (ownBranches rest) :=
  pick.among_append _ _

@[simp] theorem among_ownCatches_cons (caught : Caught) (rest : List Catch) :
    pick.among (ownCatches (⟨caught, body⟩ :: rest)) = pick.inside body ++
      pick.among (ownCatches rest) :=
  pick.among_append _ _

@[simp] theorem among_ownSections_cons (label : Label) (rest : List Section) :
    pick.among (ownSections (⟨label, body⟩ :: rest)) = pick.inside body ++
      pick.among (ownSections rest) :=
  pick.among_append _ _

end Compound

end Pick

end PythonToCSharp.CSharp

namespace PythonToCSharp.Lowering

variable {γ : Type} (pick : CSharp.Pick γ)

theorem among_guarded (test : CSharp.Expr) (block : Block) :
    pick.among (guarded test block).own = pick.inside block := by
  simp [guarded]

/-- Nothing is picked from the jump that closes a section. -/
theorem inside_sectionBody (source : List Python.Stmt) (body : Block) :
    pick.inside (sectionBody source body) = pick.inside body := by
  unfold sectionBody
  split
  · rfl
  · have hjump : pick.inside [.break_] = [] := pick.inside_plain (List.forall_mem_singleton.2 rfl)
    rw [pick.inside_append, hjump, List.append_nil]

end PythonToCSharp.Lowering
