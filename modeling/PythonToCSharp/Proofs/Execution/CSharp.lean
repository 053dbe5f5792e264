import PythonToCSharp.CSharp.Statement

/-!
What C# statements do when they run.

A machine says what lines without control flow do, how conditions come out, what a loop goes through
and what a clause catches; the rules say how control moves between them. Variables that are declared
as truth values are kept apart from the state of the machine, and only assignments of truth values
to them change them.

A run may be looked at up to any statement, so that the rules also speak of runs without an end: its
outcome is `cut` then.
-/

namespace PythonToCSharp

/-- How code ends. -/
inductive Outcome (Fault : Type) where
  | normal
  | broke
  | continued
  | returned
  | raised (fault : Fault)
  /-- The run is not looked at any further. -/
  | cut

namespace Outcome

variable {Fault : Type}

/-- Whether a loop goes on when its body ends so. -/
def goesOn : Outcome Fault → Bool
  | .normal | .continued => true
  | _ => false

/-- How a loop statement ends when the loop ends so: `break` only leaves the loop. -/
def afterLoop : Outcome Fault → Outcome Fault
  | .broke => .normal
  | outcome => outcome

/-- How code ends whose last part ends so, if it was to end with `before`. -/
def followed (before : Outcome Fault) : Outcome Fault → Outcome Fault
  | .normal => before
  | outcome => outcome

theorem ne_broke_of_goesOn {o : Outcome Fault} (h : o.goesOn = true) : o ≠ .broke := by
  rintro rfl
  cases h

theorem ne_cut_of_goesOn {o : Outcome Fault} (h : o.goesOn = true) : o ≠ .cut := by
  rintro rfl
  cases h

theorem ne_cut_of_afterLoop {o : Outcome Fault} (h : o.afterLoop ≠ .cut) : o ≠ .cut := by
  rintro rfl
  exact h rfl

theorem afterLoop_ne_broke (o : Outcome Fault) : o.afterLoop ≠ .broke := by
  cases o <;> exact nofun

end Outcome

/-- The values of the variables that have one. -/
abbrev Store (Value : Type) := String → Option Value

namespace Store

variable {Value : Type}

/-- A variable takes a value. -/
def set (store : Store Value) (name : String) (value : Value) : Store Value :=
  fun other => if other = name then some value else store other

theorem set_self (store : Store Value) (name : String) (value : Value) :
    store.set name value name = some value :=
  if_pos rfl

theorem set_ne (store : Store Value) {name other : String} (h : other ≠ name) (value : Value) :
    store.set name value other = store other :=
  if_neg h

theorem isSome_set (store : Store Value) {name other : String} (value : Value)
    (h : (store other).isSome = true) : (store.set name value other).isSome = true := by
  by_cases heq : other = name
  · rw [heq, store.set_self]
    rfl
  · rwa [store.set_ne heq]

end Store

namespace CSharp

/-- What is left open by the rules. -/
structure Machine where
  State : Type
  Value : Type
  Fault : Type
  /-- A line runs to its end, or raises. -/
  runs : Stmt → State → Option Fault → State → Prop
  /-- A condition comes out, or raises. -/
  tests : Expr → State → Except Fault Bool → State → Prop
  /-- An expression gives the elements that a loop goes through, or raises. -/
  elements : Expr → State → Except Fault (List Value) → State → Prop
  /-- The loop variable takes an element. -/
  bind : String → Value → State → State
  /-- A clause catches a fault, which its variable takes. -/
  catches : Caught → Fault → State → Option State

/-- The variables that are declared as truth values. -/
abbrev Flags := Store Bool

/-- All that statements read and change. -/
structure Config (m : Machine) where
  state : m.State
  flags : Flags

/-- What can be seen of a run. -/
inductive Event (m : Machine) where
  | ran (line : Stmt) (fault : Option m.Fault)
  | tested (test : Expr) (result : Except m.Fault Bool)

/-- Whether a statement is one line for the machine. A loop that only passes its elements on is one
too. -/
def Stmt.isLine : Stmt → Bool
  | .expr _ | .empty | .assign _ _ | .augment _ _ _ | .comment _ => true
  | .yieldReturn _ | .yieldBreak | .return_ _ | .throw_ _ => true
  | .forEach _ _ _ [.yieldReturn _] => true
  | _ => false

/-- How a line ends that runs to its end. -/
def Stmt.ending {Fault : Type} : Stmt → Outcome Fault
  | .return_ _ | .yieldBreak => .returned
  | _ => .normal

/-- The variable that a line assigns to. -/
def Stmt.target? : Stmt → Option String
  | .assign (.name x) _ => some x
  | .augment (.name x) _ _ => some x
  | _ => none

/-- The variable that decides a condition alone. -/
def Expr.decider? : Expr → Option String
  | .name x => some x
  | .unary .not (.name x) => some x
  | _ => none

/-- The variable that an expression is, if it is one. -/
def Expr.name? : Expr → Option String
  | .name text => some text
  | _ => none

/-- How a condition comes out: a declared truth value has its value, anything else is left to the
machine. -/
inductive Tests (m : Machine) :
    Expr → Config m → List (Event m) → Except m.Fault Bool → m.State → Prop where
  | flag {name : String} {value : Bool} {c : Config m} (h : c.flags name = some value) :
      Tests m (.name name) c [] (.ok value) c.state
  | notFlag {name : String} {value : Bool} {c : Config m} (h : c.flags name = some value) :
      Tests m (.unary .not (.name name)) c [] (.ok !value) c.state
  | other {test : Expr} {c : Config m} {result : Except m.Fault Bool} {state : m.State}
      (hf : ∀ x ∈ test.decider?, c.flags x = none) (h : m.tests test c.state result state) :
      Tests m test c [.tested test result] result state

/-- What the rules speak of: statements, and parts of statements that are under way. -/
inductive Code (m : Machine) where
  | stmt (s : Stmt)
  | block (body : List Stmt)
  /-- The branches of an `if` that are still to be tried. -/
  | branches (branches : List Branch) (otherwise : Option (List Stmt))
  | loop (test : Expr) (body : List Stmt)
  /-- The elements that a loop is still to go through. -/
  | each (item : String) (values : List m.Value) (body : List Stmt)
  /-- The clauses that are still to be tried behind a body that ended so. -/
  | handle (catches : List Catch) (outcome : Outcome m.Fault)
  /-- The cleanup behind what ended so. -/
  | finish (cleanup : Option (List Stmt)) (outcome : Outcome m.Fault)

/-- The code runs from one configuration to another, with what can be seen of it and how it ends. -/
inductive Exec (m : Machine) :
    Code m → Config m → List (Event m) → Outcome m.Fault → Config m → Prop where
  -- a run is looked at up to a statement or up to the test of a loop
  | cut (s : Stmt) (c : Config m) : Exec m (.stmt s) c [] .cut c
  | cutLoop (test : Expr) (body : List Stmt) (c : Config m) : Exec m (.loop test body) c [] .cut c
  -- single statements
  | line {s : Stmt} {c : Config m} {state : m.State} (hs : s.isLine = true)
      (hf : ∀ x ∈ s.target?, c.flags x = none) (h : m.runs s c.state none state) :
      Exec m (.stmt s) c [.ran s none] s.ending ⟨state, c.flags⟩
  | lineRaises {s : Stmt} {c : Config m} {fault : m.Fault} {state : m.State} (hs : s.isLine = true)
      (hf : ∀ x ∈ s.target?, c.flags x = none) (h : m.runs s c.state (some fault) state) :
      Exec m (.stmt s) c [.ran s (some fault)] (.raised fault) ⟨state, c.flags⟩
  | flag (name : String) (value : Bool) (c : Config m) :
      Exec m (.stmt (.flag name value)) c [] .normal ⟨c.state, c.flags.set name value⟩
  | setFlag {name : String} {e : Expr} {value : Bool} {c : Config m}
      (hd : (c.flags name).isSome = true) (he : e = .ofBool value) :
      Exec m (.stmt (.assign (.name name) e)) c [] .normal ⟨c.state, c.flags.set name value⟩
  | break_ (c : Config m) : Exec m (.stmt .break_) c [] .broke c
  | continue_ (c : Config m) : Exec m (.stmt .continue_) c [] .continued c
  -- blocks
  | nil (c : Config m) : Exec m (.block []) c [] .normal c
  | cons {s : Stmt} {rest : List Stmt} {c c₁ c₂ : Config m} {tr₁ tr₂ : List (Event m)}
      {o : Outcome m.Fault} (hs : Exec m (.stmt s) c tr₁ .normal c₁)
        (hr : Exec m (.block rest) c₁ tr₂ o c₂) :
      Exec m (.block (s :: rest)) c (tr₁ ++ tr₂) o c₂
  | stop {s : Stmt} {rest : List Stmt} {c c₁ : Config m} {tr : List (Event m)} {o : Outcome m.Fault}
      (hs : Exec m (.stmt s) c tr o c₁) (ho : o ≠ .normal) : Exec m (.block (s :: rest)) c tr o c₁
  -- conditions
  | ifElse {branches : List Branch} {otherwise : Option (List Stmt)} {c c₁ : Config m}
      {tr : List (Event m)} {o : Outcome m.Fault}
        (h : Exec m (.branches branches otherwise) c tr o c₁) :
      Exec m (.stmt (.ifElse branches otherwise)) c tr o c₁
  | taken {branch : Branch} {rest : List Branch} {otherwise : Option (List Stmt)} {c c₁ : Config m}
      {state : m.State} {tr₁ tr₂ : List (Event m)} {o : Outcome m.Fault}
      (ht : Tests m branch.test c tr₁ (.ok true) state)
      (hb : Exec m (.block branch.body) ⟨state, c.flags⟩ tr₂ o c₁) :
      Exec m (.branches (branch :: rest) otherwise) c (tr₁ ++ tr₂) o c₁
  | skipped {branch : Branch} {rest : List Branch} {otherwise : Option (List Stmt)}
      {c c₁ : Config m} {state : m.State} {tr₁ tr₂ : List (Event m)} {o : Outcome m.Fault}
      (ht : Tests m branch.test c tr₁ (.ok false) state)
      (hr : Exec m (.branches rest otherwise) ⟨state, c.flags⟩ tr₂ o c₁) :
      Exec m (.branches (branch :: rest) otherwise) c (tr₁ ++ tr₂) o c₁
  | branchRaises {branch : Branch} {rest : List Branch} {otherwise : Option (List Stmt)}
      {c : Config m} {state : m.State} {tr : List (Event m)} {fault : m.Fault}
      (ht : Tests m branch.test c tr (.error fault) state) :
      Exec m (.branches (branch :: rest) otherwise) c tr (.raised fault) ⟨state, c.flags⟩
  | otherwise {body : List Stmt} {c c₁ : Config m} {tr : List (Event m)} {o : Outcome m.Fault}
      (h : Exec m (.block body) c tr o c₁) : Exec m (.branches [] (some body)) c tr o c₁
  | noBranch (c : Config m) : Exec m (.branches [] none) c [] .normal c
  -- loops
  | whileLoop {test : Expr} {body : List Stmt} {c c₁ : Config m} {tr : List (Event m)}
      {o : Outcome m.Fault} (h : Exec m (.loop test body) c tr o c₁) :
      Exec m (.stmt (.whileLoop test body)) c tr o.afterLoop c₁
  | loopEnds {test : Expr} {body : List Stmt} {c : Config m} {state : m.State} {tr : List (Event m)}
      (ht : Tests m test c tr (.ok false) state) :
        Exec m (.loop test body) c tr .normal ⟨state, c.flags⟩
  | loopNext {test : Expr} {body : List Stmt} {c c₁ c₂ : Config m} {state : m.State}
      {tr tr₁ tr₂ : List (Event m)} {o₁ o : Outcome m.Fault}
        (ht : Tests m test c tr (.ok true) state)
      (hb : Exec m (.block body) ⟨state, c.flags⟩ tr₁ o₁ c₁) (ho : o₁.goesOn = true)
      (hl : Exec m (.loop test body) c₁ tr₂ o c₂) :
        Exec m (.loop test body) c (tr ++ (tr₁ ++ tr₂)) o c₂
  | loopStops {test : Expr} {body : List Stmt} {c c₁ : Config m} {state : m.State}
      {tr tr₁ : List (Event m)} {o : Outcome m.Fault} (ht : Tests m test c tr (.ok true) state)
      (hb : Exec m (.block body) ⟨state, c.flags⟩ tr₁ o c₁) (ho : o.goesOn = false) :
      Exec m (.loop test body) c (tr ++ tr₁) o c₁
  | loopRaises {test : Expr} {body : List Stmt} {c : Config m} {state : m.State}
      {tr : List (Event m)} {fault : m.Fault} (ht : Tests m test c tr (.error fault) state) :
      Exec m (.loop test body) c tr (.raised fault) ⟨state, c.flags⟩
  | forEach {isAsync : Bool} {item : String} {source : Expr} {body : List Stmt} {c c₁ : Config m}
      {state : m.State} {values : List m.Value} {tr : List (Event m)} {o : Outcome m.Fault}
      (hs : (Stmt.forEach isAsync item source body).isLine = false)
      (he : m.elements source c.state (.ok values) state)
      (h : Exec m (.each item values body) ⟨state, c.flags⟩ tr o c₁) :
      Exec m (.stmt (.forEach isAsync item source body)) c tr o.afterLoop c₁
  | forEachRaises {isAsync : Bool} {item : String} {source : Expr} {body : List Stmt} {c : Config m}
      {state : m.State} {fault : m.Fault}
      (hs : (Stmt.forEach isAsync item source body).isLine = false)
      (he : m.elements source c.state (.error fault) state) :
      Exec m (.stmt (.forEach isAsync item source body)) c [] (.raised fault) ⟨state, c.flags⟩
  | eachEnds (item : String) (body : List Stmt) (c : Config m) :
      Exec m (.each item [] body) c [] .normal c
  | eachNext {item : String} {value : m.Value} {values : List m.Value} {body : List Stmt}
      {c c₁ c₂ : Config m} {tr₁ tr₂ : List (Event m)} {o₁ o : Outcome m.Fault}
      (hb : Exec m (.block body) ⟨m.bind item value c.state, c.flags⟩ tr₁ o₁ c₁)
        (ho : o₁.goesOn = true)
      (hr : Exec m (.each item values body) c₁ tr₂ o c₂) :
      Exec m (.each item (value :: values) body) c (tr₁ ++ tr₂) o c₂
  | eachStops {item : String} {value : m.Value} {values : List m.Value} {body : List Stmt}
      {c c₁ : Config m} {tr : List (Event m)} {o : Outcome m.Fault}
      (hb : Exec m (.block body) ⟨m.bind item value c.state, c.flags⟩ tr o c₁)
        (ho : o.goesOn = false) :
      Exec m (.each item (value :: values) body) c tr o c₁
  -- exceptions
  | tryCatch {body : List Stmt} {catches : List Catch} {cleanup : Option (List Stmt)}
      {c c₁ c₂ c₃ : Config m} {tr₁ tr₂ tr₃ : List (Event m)} {o₁ o₂ o₃ : Outcome m.Fault}
      (hb : Exec m (.block body) c tr₁ o₁ c₁) (hh : Exec m (.handle catches o₁) c₁ tr₂ o₂ c₂)
      (hf : Exec m (.finish cleanup o₂) c₂ tr₃ o₃ c₃) :
      Exec m (.stmt (.tryCatch body catches cleanup)) c (tr₁ ++ (tr₂ ++ tr₃)) o₃ c₃
  | passes {catches : List Catch} {o : Outcome m.Fault} (c : Config m)
      (ho : ∀ fault, o ≠ .raised fault) : Exec m (.handle catches o) c [] o c
  | uncaught (fault : m.Fault) (c : Config m) :
      Exec m (.handle [] (.raised fault)) c [] (.raised fault) c
  | caught {clause : Catch} {rest : List Catch} {fault : m.Fault} {c c₁ : Config m}
      {state : m.State} {tr : List (Event m)} {o : Outcome m.Fault}
      (hc : m.catches clause.caught fault c.state = some state)
      (hb : Exec m (.block clause.body) ⟨state, c.flags⟩ tr o c₁) :
      Exec m (.handle (clause :: rest) (.raised fault)) c tr o c₁
  | missed {clause : Catch} {rest : List Catch} {fault : m.Fault} {c c₁ : Config m}
      {tr : List (Event m)} {o : Outcome m.Fault}
        (hc : m.catches clause.caught fault c.state = none)
      (hr : Exec m (.handle rest (.raised fault)) c tr o c₁) :
      Exec m (.handle (clause :: rest) (.raised fault)) c tr o c₁
  | noCleanup (o : Outcome m.Fault) (c : Config m) : Exec m (.finish none o) c [] o c
  | unfinished (body : List Stmt) (c : Config m) : Exec m (.finish (some body) .cut) c [] .cut c
  | cleanup {body : List Stmt} {o o₁ : Outcome m.Fault} {c c₁ : Config m} {tr : List (Event m)}
      (ho : o ≠ .cut) (hb : Exec m (.block body) c tr o₁ c₁) :
      Exec m (.finish (some body) o) c tr (o.followed o₁) c₁

/-! ## Truth values -/

theorem ofBool_injective : ∀ {a b : Bool}, Expr.ofBool a = Expr.ofBool b → a = b
  | true, true, _ => rfl
  | false, false, _ => rfl
  | true, false, h => absurd (Expr.literal.inj h) (by decide)
  | false, true, h => absurd (Expr.literal.inj h) (by decide)

section

variable {m : Machine} {c c₁ : Config m} {tr : List (Event m)} {o : Outcome m.Fault}

/-- A declared truth value decides a condition. -/
theorem Tests.of_flag {name : String} {value : Bool} {result : Except m.Fault Bool}
    {state : m.State}
    (hf : c.flags name = some value) (h : Tests m (.name name) c tr result state) :
    tr = [] ∧ result = .ok value ∧ state = c.state := by
  cases h with
  | flag hv =>
    rw [hf] at hv
    cases hv
    exact ⟨rfl, rfl, rfl⟩
  | other hn _ =>
    have hnone := hn name rfl
    rw [hf] at hnone
    cases hnone

theorem Tests.of_notFlag {name : String} {value : Bool} {result : Except m.Fault Bool}
    {state : m.State}
    (hf : c.flags name = some value) (h : Tests m (.unary .not (.name name)) c tr result state) :
    tr = [] ∧ result = .ok !value ∧ state = c.state := by
  cases h with
  | notFlag hv =>
    rw [hf] at hv
    cases hv
    exact ⟨rfl, rfl, rfl⟩
  | other hn _ =>
    have hnone := hn name rfl
    rw [hf] at hnone
    cases hnone

/-! ## Taking runs apart -/

namespace Exec

/-- The first statement of a block runs to its end and the rest follows, or the first one leaves the
block. -/
theorem cons_cases {s : Stmt} {rest : List Stmt} (h : Exec m (.block (s :: rest)) c tr o c₁) :
    (∃ tr₁ c₀ tr₂, Exec m (.stmt s) c tr₁ .normal c₀ ∧ Exec m (.block rest) c₀ tr₂ o c₁ ∧
        tr = tr₁ ++ tr₂) ∨
      Exec m (.stmt s) c tr o c₁ ∧ o ≠ .normal := by
  cases h with
  | cons hs hr => exact .inl ⟨_, _, _, hs, hr, rfl⟩
  | stop hs ho => exact .inr ⟨hs, ho⟩

theorem of_singleton {s : Stmt} (h : Exec m (.block [s]) c tr o c₁) :
    Exec m (.stmt s) c tr o c₁ := by
  rcases h.cons_cases with ⟨tr₁, c₀, tr₂, hs, hr, rfl⟩ | ⟨hs, -⟩
  · cases hr
    rw [List.append_nil]
    exact hs
  · exact hs

theorem singleton {s : Stmt} (h : Exec m (.stmt s) c tr o c₁) : Exec m (.block [s]) c tr o c₁ := by
  cases o with
  | normal =>
    have hcons := Exec.cons h (.nil c₁)
    rwa [List.append_nil] at hcons
  | _ => exact .stop h (by simp)

/-- The first part of a block runs to its end and the rest follows, or the first part leaves the
block. -/
theorem append_cases {xs ys : List Stmt} (h : Exec m (.block (xs ++ ys)) c tr o c₁) :
    (∃ tr₁ c₀ tr₂, Exec m (.block xs) c tr₁ .normal c₀ ∧ Exec m (.block ys) c₀ tr₂ o c₁ ∧
        tr = tr₁ ++ tr₂) ∨
      Exec m (.block xs) c tr o c₁ ∧ o ≠ .normal := by
  induction xs generalizing c tr with
  | nil => exact .inl ⟨[], c, tr, .nil c, h, rfl⟩
  | cons x xs ih =>
    rcases h.cons_cases with ⟨tr₁, c₀, tr₂, hx, hr, rfl⟩ | ⟨hx, ho⟩
    · rcases ih hr with ⟨tr₃, c₂, tr₄, hxs, hys, rfl⟩ | ⟨hxs, ho⟩
      · exact .inl ⟨tr₁ ++ tr₃, c₂, tr₄, .cons hx hxs, hys, by rw [List.append_assoc]⟩
      · exact .inr ⟨.cons hx hxs, ho⟩
    · exact .inr ⟨.stop hx ho, ho⟩

theorem append {xs ys : List Stmt} {c₀ : Config m} {tr₁ tr₂ : List (Event m)}
    (hx : Exec m (.block xs) c tr₁ .normal c₀) (hy : Exec m (.block ys) c₀ tr₂ o c₁) :
    Exec m (.block (xs ++ ys)) c (tr₁ ++ tr₂) o c₁ := by
  induction xs generalizing c tr₁ with
  | nil =>
    cases hx
    exact hy
  | cons x xs ih =>
    rcases hx.cons_cases with ⟨tr₃, c₂, tr₄, hs, hr, rfl⟩ | ⟨-, ho⟩
    · rw [List.append_assoc]
      exact .cons hs (ih hr)
    · exact absurd rfl ho

theorem append_left {xs ys : List Stmt} (hx : Exec m (.block xs) c tr o c₁) (ho : o ≠ .normal) :
    Exec m (.block (xs ++ ys)) c tr o c₁ := by
  induction xs generalizing c tr with
  | nil =>
    cases hx
    exact absurd rfl ho
  | cons x xs ih =>
    rcases hx.cons_cases with ⟨tr₁, c₀, tr₂, hs, hr, rfl⟩ | ⟨hs, ho⟩
    · exact .cons hs (ih hr)
    · exact .stop hs ho

/-- A line leaves the truth values alone and would run the same way without them, unless it sets
one. -/
theorem of_line {s : Stmt} (hs : s.isLine = true)
    (hn : ∀ name value, s = .assign (.name name) (.ofBool value) → c.flags name = none)
    (h : Exec m (.stmt s) c tr o c₁) :
    c₁.flags = c.flags ∧ o ≠ .broke ∧ Exec m (.stmt s)
      ⟨c.state, fun _ => none⟩ tr o ⟨c₁.state, fun _ => none⟩ := by
  cases h with
  | cut => exact ⟨rfl, nofun, .cut _ _⟩
  | line hl _ hr =>
    refine ⟨rfl, ?_, .line hl (fun _ _ => rfl) hr⟩
    unfold Stmt.ending
    split <;> exact nofun
  | lineRaises hl _ hr => exact ⟨rfl, nofun, .lineRaises hl (fun _ _ => rfl) hr⟩
  | setFlag hd he =>
    rw [hn _ _ (by rw [he])] at hd
    cases hd
  | forEach hl _ _ => exact absurd (hs.symm.trans hl) nofun
  | forEachRaises hl _ => exact absurd (hs.symm.trans hl) nofun
  | _ => cases hs

theorem flag_cases {name : String} {value : Bool}
    (h : Exec m (.stmt (.flag name value)) c tr o c₁) :
    tr = [] ∧ (o = .normal ∧ c₁ = ⟨c.state, c.flags.set name value⟩ ∨ o = .cut ∧ c₁ = c) := by
  cases h with
  | cut => exact ⟨rfl, .inr ⟨rfl, rfl⟩⟩
  | line hs => cases hs
  | lineRaises hs => cases hs
  | flag => exact ⟨rfl, .inl ⟨rfl, rfl⟩⟩

/-- An assignment to a declared truth value. -/
theorem setFlag_cases {name : String} {value : Bool} (hd : (c.flags name).isSome = true)
    (h : Exec m (.stmt (.assign (.name name) (.ofBool value))) c tr o c₁) :
    tr = [] ∧ (o = .normal ∧ c₁ = ⟨c.state, c.flags.set name value⟩ ∨ o = .cut ∧ c₁ = c) := by
  have hsome : c.flags name ≠ none := by
    intro hnone
    rw [hnone] at hd
    cases hd
  cases h with
  | cut => exact ⟨rfl, .inr ⟨rfl, rfl⟩⟩
  | line _ hf _ => exact absurd (hf name rfl) hsome
  | lineRaises _ hf _ => exact absurd (hf name rfl) hsome
  | setFlag _ he =>
    obtain rfl := ofBool_injective he
    exact ⟨rfl, .inl ⟨rfl, rfl⟩⟩

theorem break_cases (h : Exec m (.stmt .break_) c tr o c₁) :
    tr = [] ∧ c₁ = c ∧ (o = .broke ∨ o = .cut) := by
  cases h with
  | cut => exact ⟨rfl, rfl, .inr rfl⟩
  | line hs => cases hs
  | lineRaises hs => cases hs
  | break_ => exact ⟨rfl, rfl, .inl rfl⟩

theorem continue_cases (h : Exec m (.stmt .continue_) c tr o c₁) :
    tr = [] ∧ c₁ = c ∧ (o = .continued ∨ o = .cut) := by
  cases h with
  | cut => exact ⟨rfl, rfl, .inr rfl⟩
  | line hs => cases hs
  | lineRaises hs => cases hs
  | continue_ => exact ⟨rfl, rfl, .inl rfl⟩

/-- A block under a condition that a truth value decides. -/
theorem guard_cases {test : Expr} {body : List Stmt} {value : Bool}
    (ht : ∀ {tr result state}, Tests m test c tr result state →
      tr = [] ∧ result = .ok value ∧ state = c.state)
    (h : Exec m (.stmt (.ifElse [⟨test, body⟩] none)) c tr o c₁) :
    (o = .cut ∧ tr = [] ∧ c₁ = c) ∨ (value = true ∧ Exec m (.block body) c tr o c₁) ∨
      (value = false ∧ o = .normal ∧ tr = [] ∧ c₁ = c) := by
  cases h with
  | cut => exact .inl ⟨rfl, rfl, rfl⟩
  | line hs => cases hs
  | lineRaises hs => cases hs
  | ifElse h =>
    cases h with
    | taken htest hb =>
      obtain ⟨rfl, hv, rfl⟩ := ht htest
      cases hv
      exact .inr (.inl ⟨rfl, hb⟩)
    | skipped htest hr =>
      obtain ⟨rfl, hv, rfl⟩ := ht htest
      cases hv
      cases hr
      exact .inr (.inr ⟨rfl, rfl, rfl, rfl⟩)
    | branchRaises htest =>
      obtain ⟨-, hv, -⟩ := ht htest
      cases hv

theorem guard_taken {test : Expr} {body : List Stmt} {tr₁ tr₂ : List (Event m)}
    (ht : Tests m test c tr₁ (.ok true) c.state) (hb : Exec m (.block body) c tr₂ o c₁) :
    Exec m (.stmt (.ifElse [⟨test, body⟩] none)) c (tr₁ ++ tr₂) o c₁ :=
  .ifElse (.taken ht hb)

theorem guard_skipped {test : Expr} {body : List Stmt}
    (ht : Tests m test c tr (.ok false) c.state) :
    Exec m (.stmt (.ifElse [⟨test, body⟩] none)) c tr .normal c := by
  have hskipped : Exec m (.branches [⟨test, body⟩] none) c (tr ++ []) .normal c :=
    .skipped ht (.noBranch c)
  rw [List.append_nil] at hskipped
  exact .ifElse hskipped

end Exec

end

end CSharp

end PythonToCSharp
