import PythonToCSharp.Proofs.Execution.CSharp
import PythonToCSharp.Python.Tree

/-!
What Python statements do when they run.

A meaning says what simple statements do, how conditions come out, what a loop goes through and
which clause takes an exception; the rules say how control moves between them. Two of them are not
Python's own: the `else` of a `for` runs when there was no element, and the `else` of a `try` runs
behind its `finally`.
-/

namespace PythonToCSharp.Python

/-- Whether a statement is simple: it has no blocks and does not move control inside its body, apart
from leaving it. -/
def StmtKind.isSimple : StmtKind → Bool
  | .expr _ | .assign _ _ | .annAssign _ _ _ | .augAssign _ _ _ => true
  | .returnStmt _ | .raiseStmt _ _ | .deleteStmt _ | .assertStmt _ _ => true
  | .importStmt _ | .importFrom _ _ _ | .globalStmt _ | .nonlocalStmt _ => true
  | .passStmt | .comment _ | .unsupported _ _ => true
  | _ => false

/-- What is left open by the rules. -/
structure Meaning where
  State : Type
  Value : Type
  Fault : Type
  Event : Type
  /-- A simple statement runs, with what can be seen of it. -/
  simple : StmtKind → State → List Event → Outcome Fault → State → Prop
  /-- A condition comes out, or raises. -/
  test : Expr → State → List Event → Except Fault Bool → State → Prop
  /-- An expression gives the elements that a loop goes through, or raises. -/
  elements : Expr → State → Except Fault (List Value) → State → Prop
  /-- The target of a loop takes an element. -/
  bind : Expr → Value → State → State → Prop
  /-- A clause takes an exception, or does not. -/
  takes : Handler → Fault → State → Option State → Prop
  /-- Whether it is left open if the `else` of a `while` runs behind a loop that its test has ended.
  -/
  whileElseOpen : Prop

/-- What the rules speak of: statements, and parts of statements that are under way. -/
inductive Code (M : Meaning) where
  | stmt (kind : StmtKind)
  | block (body : List Stmt)
  /-- The branches that are still to be tried; an `else` alone is what is left behind the last one.
  -/
  | branches (branches : List Branch) (orelse : Option (List Stmt))
  | loop (test : Expr) (body : List Stmt)
  /-- The elements that a loop is still to go through. -/
  | each (target : Expr) (values : List M.Value) (body : List Stmt)
  /-- The clauses that are still to be tried behind a body that ended so. -/
  | handle (handlers : List Handler) (outcome : Outcome M.Fault)
  /-- The `finally` behind what ended so. -/
  | finish (finalbody : Option (List Stmt)) (outcome : Outcome M.Fault)

/-- The code runs from one state to another, with what can be seen of it and how it ends. -/
inductive Runs (M : Meaning) :
    Code M → M.State → List M.Event → Outcome M.Fault → M.State → Prop where
  -- a run is looked at up to any point
  | cut (code : Code M) (s : M.State) : Runs M code s [] .cut s
  | cutEnd {code : Code M} {s s₁ : M.State} {tr : List M.Event} {o : Outcome M.Fault}
      (h : Runs M code s tr o s₁) : Runs M code s tr .cut s₁
  -- single statements
  | simple {kind : StmtKind} {s s₁ : M.State} {tr : List M.Event} {o : Outcome M.Fault}
      (hk : kind.isSimple = true) (h : M.simple kind s tr o s₁) : Runs M (.stmt kind) s tr o s₁
  | break_ (s : M.State) : Runs M (.stmt .breakStmt) s [] .broke s
  | continue_ (s : M.State) : Runs M (.stmt .continueStmt) s [] .continued s
  -- blocks
  | nil (s : M.State) : Runs M (.block []) s [] .normal s
  | cons {stmt : Stmt} {rest : List Stmt} {s s₁ s₂ : M.State} {tr₁ tr₂ : List M.Event}
      {o : Outcome M.Fault} (hs : Runs M (.stmt stmt.kind) s tr₁ .normal s₁)
      (hr : Runs M (.block rest) s₁ tr₂ o s₂) : Runs M (.block (stmt :: rest)) s (tr₁ ++ tr₂) o s₂
  | stop {stmt : Stmt} {rest : List Stmt} {s s₁ : M.State} {tr : List M.Event} {o : Outcome M.Fault}
      (hs : Runs M (.stmt stmt.kind) s tr o s₁) (ho : o ≠ .normal) :
      Runs M (.block (stmt :: rest)) s tr o s₁
  -- conditions
  | ifChain {branches : List Branch} {orelse : Option (List Stmt)} {s s₁ : M.State}
      {tr : List M.Event} {o : Outcome M.Fault} (h : Runs M (.branches branches orelse) s tr o s₁) :
      Runs M (.stmt (.ifChain branches orelse)) s tr o s₁
  | taken {branch : Branch} {rest : List Branch} {orelse : Option (List Stmt)} {s s₁ s₂ : M.State}
      {tr₁ tr₂ : List M.Event} {o : Outcome M.Fault} (ht : M.test branch.test s tr₁ (.ok true) s₁)
      (hb : Runs M (.block branch.body) s₁ tr₂ o s₂) :
      Runs M (.branches (branch :: rest) orelse) s (tr₁ ++ tr₂) o s₂
  | skipped {branch : Branch} {rest : List Branch} {orelse : Option (List Stmt)} {s s₁ s₂ : M.State}
      {tr₁ tr₂ : List M.Event} {o : Outcome M.Fault} (ht : M.test branch.test s tr₁ (.ok false) s₁)
      (hr : Runs M (.branches rest orelse) s₁ tr₂ o s₂) :
      Runs M (.branches (branch :: rest) orelse) s (tr₁ ++ tr₂) o s₂
  | branchRaises {branch : Branch} {rest : List Branch} {orelse : Option (List Stmt)}
      {s s₁ : M.State}
      {tr : List M.Event} {fault : M.Fault} (ht : M.test branch.test s tr (.error fault) s₁) :
      Runs M (.branches (branch :: rest) orelse) s tr (.raised fault) s₁
  | orelse {body : List Stmt} {s s₁ : M.State} {tr : List M.Event} {o : Outcome M.Fault}
      (h : Runs M (.block body) s tr o s₁) : Runs M (.branches [] (some body)) s tr o s₁
  | noElse (s : M.State) : Runs M (.branches [] none) s [] .normal s
  -- loops
  | whileLoop {test : Expr} {body : List Stmt} {s s₁ : M.State} {tr : List M.Event}
      {o : Outcome M.Fault} (h : Runs M (.loop test body) s tr o s₁) :
      Runs M (.stmt (.whileLoop test body none)) s tr o.afterLoop s₁
  | whileElse {test : Expr} {body orelse : List Stmt} {s s₁ s₂ : M.State} {tr₁ tr₂ : List M.Event}
      {o : Outcome M.Fault} (h : Runs M (.loop test body) s tr₁ .normal s₁)
      (he : Runs M (.block orelse) s₁ tr₂ o s₂) :
      Runs M (.stmt (.whileLoop test body (some orelse))) s (tr₁ ++ tr₂) o s₂
  | whileSkipped {test : Expr} {body orelse : List Stmt} {s s₁ : M.State} {tr : List M.Event}
      (hw : M.whileElseOpen) (h : Runs M (.loop test body) s tr .normal s₁) :
      Runs M (.stmt (.whileLoop test body (some orelse))) s tr .normal s₁
  | whileLeft {test : Expr} {body orelse : List Stmt} {s s₁ : M.State} {tr : List M.Event}
      {o : Outcome M.Fault} (h : Runs M (.loop test body) s tr o s₁) (ho : o ≠ .normal) :
      Runs M (.stmt (.whileLoop test body (some orelse))) s tr o.afterLoop s₁
  | loopEnds {test : Expr} {body : List Stmt} {s s₁ : M.State} {tr : List M.Event}
      (ht : M.test test s tr (.ok false) s₁) : Runs M (.loop test body) s tr .normal s₁
  | loopNext {test : Expr} {body : List Stmt} {s s₁ s₂ s₃ : M.State} {tr tr₁ tr₂ : List M.Event}
      {o₁ o : Outcome M.Fault} (ht : M.test test s tr (.ok true) s₁)
      (hb : Runs M (.block body) s₁ tr₁ o₁ s₂) (ho : o₁.goesOn = true)
      (hl : Runs M (.loop test body) s₂ tr₂ o s₃) :
        Runs M (.loop test body) s (tr ++ (tr₁ ++ tr₂)) o s₃
  | loopStops {test : Expr} {body : List Stmt} {s s₁ s₂ : M.State} {tr tr₁ : List M.Event}
      {o : Outcome M.Fault} (ht : M.test test s tr (.ok true) s₁)
      (hb : Runs M (.block body) s₁ tr₁ o s₂) (ho : o.goesOn = false) :
      Runs M (.loop test body) s (tr ++ tr₁) o s₂
  | loopRaises {test : Expr} {body : List Stmt} {s s₁ : M.State} {tr : List M.Event}
      {fault : M.Fault}
      (ht : M.test test s tr (.error fault) s₁) : Runs M (.loop test body) s tr (.raised fault) s₁
  | forLoop {target iter : Expr} {body : List Stmt} {isAsync : Bool} {s s₁ s₂ : M.State}
      {values : List M.Value} {tr : List M.Event} {o : Outcome M.Fault}
      (he : M.elements iter s (.ok values) s₁) (h : Runs M (.each target values body) s₁ tr o s₂) :
      Runs M (.stmt (.forLoop target iter body none isAsync)) s tr o.afterLoop s₂
  | forElse {target iter : Expr} {body orelse : List Stmt} {isAsync : Bool} {s s₁ s₂ : M.State}
      {tr : List M.Event} {o : Outcome M.Fault} (he : M.elements iter s (.ok []) s₁)
      (h : Runs M (.block orelse) s₁ tr o s₂) :
      Runs M (.stmt (.forLoop target iter body (some orelse) isAsync)) s tr o s₂
  | forRan {target iter : Expr} {body orelse : List Stmt} {isAsync : Bool} {s s₁ s₂ : M.State}
      {value : M.Value} {values : List M.Value} {tr : List M.Event} {o : Outcome M.Fault}
      (he : M.elements iter s (.ok (value :: values)) s₁)
      (h : Runs M (.each target (value :: values) body) s₁ tr o s₂) :
      Runs M (.stmt (.forLoop target iter body (some orelse) isAsync)) s tr o.afterLoop s₂
  | forRaises {target iter : Expr} {body : List Stmt} {orelse : Option (List Stmt)} {isAsync : Bool}
      {s s₁ : M.State} {fault : M.Fault} (he : M.elements iter s (.error fault) s₁) :
      Runs M (.stmt (.forLoop target iter body orelse isAsync)) s [] (.raised fault) s₁
  | eachEnds (target : Expr) (body : List Stmt) (s : M.State) :
      Runs M (.each target [] body) s [] .normal s
  | eachNext {target : Expr} {value : M.Value} {values : List M.Value} {body : List Stmt}
      {s s₁ s₂ s₃ : M.State} {tr₁ tr₂ : List M.Event} {o₁ o : Outcome M.Fault}
      (ht : M.bind target value s s₁) (hb : Runs M (.block body) s₁ tr₁ o₁ s₂)
        (ho : o₁.goesOn = true)
      (hr : Runs M (.each target values body) s₂ tr₂ o s₃) :
      Runs M (.each target (value :: values) body) s (tr₁ ++ tr₂) o s₃
  | eachStops {target : Expr} {value : M.Value} {values : List M.Value} {body : List Stmt}
      {s s₁ s₂ : M.State} {tr : List M.Event} {o : Outcome M.Fault} (ht : M.bind target value s s₁)
      (hb : Runs M (.block body) s₁ tr o s₂) (ho : o.goesOn = false) :
      Runs M (.each target (value :: values) body) s tr o s₂
  -- exceptions
  /-- The body of the `try` ran to its end, and so did its `finally`: the `else` is entered. -/
  | tryElse {body : List Stmt} {handlers : List Handler} {orelse finalbody : Option (List Stmt)}
      {s s₁ s₂ s₃ : M.State} {tr₁ tr₂ tr₃ : List M.Event} {o : Outcome M.Fault}
      (hb : Runs M (.block body) s tr₁ .normal s₁)
        (hf : Runs M (.finish finalbody .normal) s₁ tr₂ .normal s₂)
      (he : Runs M (.branches [] orelse) s₂ tr₃ o s₃) :
      Runs M (.stmt (.tryBlock body handlers orelse finalbody)) s (tr₁ ++ (tr₂ ++ tr₃)) o s₃
  /-- The body of the `try` or its `finally` did not run to its end: the `else` is not entered. -/
  | tryDone {body : List Stmt} {handlers : List Handler} {orelse finalbody : Option (List Stmt)}
      {s s₁ s₂ s₃ : M.State} {tr₁ tr₂ tr₃ : List M.Event} {o₁ o₂ o₃ : Outcome M.Fault}
      (hb : Runs M (.block body) s tr₁ o₁ s₁) (hh : Runs M (.handle handlers o₁) s₁ tr₂ o₂ s₂)
      (hf : Runs M (.finish finalbody o₂) s₂ tr₃ o₃ s₃) (ho : o₁ ≠ .normal ∨ o₃ ≠ .normal) :
      Runs M (.stmt (.tryBlock body handlers orelse finalbody)) s (tr₁ ++ (tr₂ ++ tr₃)) o₃ s₃
  | passes {handlers : List Handler} {o : Outcome M.Fault} (s : M.State)
      (ho : ∀ fault, o ≠ .raised fault) : Runs M (.handle handlers o) s [] o s
  | uncaught (fault : M.Fault) (s : M.State) :
      Runs M (.handle [] (.raised fault)) s [] (.raised fault) s
  | caught {handler : Handler} {rest : List Handler} {fault : M.Fault} {s s₁ s₂ : M.State}
      {tr : List M.Event} {o : Outcome M.Fault} (hc : M.takes handler fault s (some s₁))
      (hb : Runs M (.block handler.body) s₁ tr o s₂) :
      Runs M (.handle (handler :: rest) (.raised fault)) s tr o s₂
  | missed {handler : Handler} {rest : List Handler} {fault : M.Fault} {s s₁ : M.State}
      {tr : List M.Event} {o : Outcome M.Fault} (hc : M.takes handler fault s none)
      (hr : Runs M (.handle rest (.raised fault)) s tr o s₁) :
      Runs M (.handle (handler :: rest) (.raised fault)) s tr o s₁
  | noFinally (o : Outcome M.Fault) (s : M.State) : Runs M (.finish none o) s [] o s
  | finally_ {body : List Stmt} {o o₁ : Outcome M.Fault} {s s₁ : M.State} {tr : List M.Event}
      (ho : o ≠ .cut) (hb : Runs M (.block body) s tr o₁ s₁) :
      Runs M (.finish (some body) o) s tr (o.followed o₁) s₁

end PythonToCSharp.Python
