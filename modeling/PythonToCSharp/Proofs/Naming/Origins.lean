import PythonToCSharp.Proofs.Naming.Hygiene

/-!
What the names in lowered code come from.

`Expr.origins` and `originsBlock` list the names that lowering writes, in the order in which they
are written. Each comes from a name of the source, with the functions, lambdas and comprehensions
that stand around it, or is generated. `Binder.Rebinds` says which of those have a variable of the
name themselves, by the rules of the source language: from there, `Origin.Free` says that a name is
the one of the body that is looked at. Classes have a scope of their own and are moved out of
functions, so nothing in them is listed.
-/

namespace PythonToCSharp.Python

/-! ## Scopes -/

/-- What opens a scope for the names in it. -/
inductive Binder where
  | function (definition : FunctionDef)
  | lambda (params : List Param) (body : Expr)
  | comprehension (clauses : List Clause)

namespace Expr

/-- The direct parts of an expression that are evaluated in the same function. -/
def inFunction : Expr → List Expr
  | .lambda params _ => params.filterMap Param.default
  | .comprehension _ element value clauses =>
      clauses.flatMap Clause.parts ++ element :: value.toList
  | e => e.children

/-- An assignment expression gives the function a variable of the name. That of a comprehension
belongs to the function around it. -/
inductive Assigns (name : String) : Expr → Prop where
  | here {value : Expr} : Assigns name (.named name value)
  | inPart {e part : Expr} : part ∈ e.inFunction → Assigns name part → Assigns name e

end Expr

/-- The name that an import gives to what it brings in; a dotted path is reached through its first
segment. -/
def ImportName.boundName (entry : ImportName) : String :=
  entry.asName.getD ((Text.pieces '.' entry.name).headD entry.name)

namespace StmtKind

/-- The names that a statement imports or deletes. -/
def importedOrDeleted : StmtKind → List String
  | .importStmt entries => entries.map ImportName.boundName
  | .importFrom _ entries _ => entries.map ImportName.boundName
  | .deleteStmt targets => targets.flatMap Expr.boundNames
  | _ => []

/-- The expressions at the head of a statement besides those in `exprs`. -/
def headExprs : StmtKind → List Expr
  | .functionDef definition => definition.decorators ++ definition.params.filterMap Param.default
  | .classDef definition => definition.decorators ++ definition.bases.map Arg.value
  | .tryBlock _ handlers _ _ => handlers.flatMap Handler.types
  | .matchBlock _ cases => cases.flatMap fun case => case.pattern.literals
  | _ => []

/-- The statement gives the function that it stands in a variable of the name. -/
def Binds (name : String) (kind : StmtKind) : Prop :=
  name ∈ kind.boundByForm ∨ name ∈ kind.importedOrDeleted ∨
    ∃ e ∈ kind.exprs ++ kind.headExprs, e.Assigns name

/-- The names that a statement declares to be those of a function around. -/
def nonlocalNames : StmtKind → List String
  | .nonlocalStmt names => names
  | _ => []

end StmtKind

/-- The name is a local variable of the body: a statement binds it, and none declares it to belong
to a function around. -/
def LocalIn (name : String) (body : List Stmt) : Prop :=
  (∃ s ∈ ownStatements body, s.kind.Binds name) ∧
    ∀ s ∈ ownStatements body, name ∉ s.kind.nonlocalNames

/-- In the scope the name is not the one around: it is a parameter, a target or a local variable
there, or declared to be one of the module. -/
def Binder.Rebinds (name : String) : Binder → Prop
  | .function definition =>
    name ∈ definition.params.map Param.name ∨ LocalIn name definition.body ∨
      ∃ s ∈ ownStatements definition.body, name ∈ s.kind.globalNames
  | .lambda params body => name ∈ params.map Param.name ∨ body.Assigns name
  | .comprehension clauses => name ∈ clauses.flatMap Clause.boundNames

/-! ## Names and where they come from -/

/-- What a name in lowered code comes from: a name of the source in the scopes around it, the
outermost first, or the lowering itself. -/
inductive Origin where
  | source (id : String) (binders : List Binder)
  | generated

namespace Origin

/-- The same name with a scope around all of its scopes. -/
def within (binder : Binder) : Origin → Origin
  | .source id binders => .source id (binder :: binders)
  | .generated => .generated

/-- If it comes from a name of the source, then no scope around it rebinds the name. -/
def Free : Origin → Prop
  | .source id binders => ∀ binder ∈ binders, ¬binder.Rebinds id
  | .generated => True

end Origin

namespace Expr

open Origin (within)

/-- The name of the helper that stands for an operator which C# lacks. -/
def helperOrigins : BinaryOp → List Origin
  | .pow | .floorDiv | .matMul => [.generated]
  | _ => []

/-- The names of one comparison: `is` may need a helper, and `in` is asked of the container, which
comes first. -/
def linkOrigins (op : CmpOp) (withNone : Bool) (left right : List Origin) : List Origin :=
  match op with
  | .is | .isNot => if withNone then left ++ right else .generated :: (left ++ right)
  | .isIn | .notIn => right ++ left
  | _ => left ++ right

/-- A tuple with less than two elements is an object of a type. -/
def tupleOrigins (size : Nat) : List Origin :=
  if size < 2 then [.generated] else []

mutual

/-- The names of an expression. -/
def origins : Expr → List Origin
  | .name id => [.source id []]
  | .imaginary _ => [.generated]
  | .fstring parts _ => originsParts parts
  | .binary left op right => helperOrigins op ++ (left.origins ++ right.origins)
  | .unary _ operand => operand.origins
  | .boolean _ left right => left.origins ++ right.origins
  | .compare left links => originsLinks left.origins links
  | .ifExp test body orelse => test.origins ++ (body.origins ++ orelse.origins)
  | .lambda params body => body.origins.map (within (.lambda params body))
  | .named target value => .source target [] :: value.origins
  | .attribute value _ => value.origins
  | .subscript value index => value.origins ++ originsList index
  | .slice lower upper step => originsOption lower ++ (originsOption upper ++ originsOption step)
  | .call func args => func.origins ++ originsArgs args
  | .list items => originsList items
  | .set items => originsList items
  | .tuple items => tupleOrigins items.length ++ originsList items
  | .dict items => originsItems items
  | .comprehension .dict element value clauses =>
    originsClauses (.comprehension clauses) true clauses ++
      (element.origins ++ originsOption value).map (within (.comprehension clauses))
  | .comprehension _ element _ clauses =>
    originsClauses (.comprehension clauses) true clauses ++
      element.origins.map (within (.comprehension clauses))
  | .await value => value.origins
  | .yield value => originsOption value
  | .yieldFrom value => value.origins
  | .starred value => value.origins
  | _ => []

/-- The names of expressions, from the left. -/
def originsList : List Expr → List Origin
  | [] => []
  | e :: rest => e.origins ++ originsList rest

/-- The names of an optional expression. -/
def originsOption : Option Expr → List Origin
  | Option.none => []
  | some e => e.origins

/-- The names of the links of a comparison chain; an operand in the middle is written twice. -/
def originsLinks (left : List Origin) : List (CmpOp × Expr) → List Origin
  | [] => []
  | (op, right) :: rest =>
    linkOrigins op (Lowering.isNone right) left right.origins ++ originsLinks right.origins rest

/-- The names of the parts of an f-string. -/
def originsParts : List FStringPart → List Origin
  | [] => []
  | .literal _ :: rest => originsParts rest
  | .interpolation e _ :: rest => e.origins ++ originsParts rest

/-- The names of arguments. -/
def originsArgs : List Arg → List Origin
  | [] => []
  | .positional e :: rest => e.origins ++ originsArgs rest
  | .keyword _ e :: rest => e.origins ++ originsArgs rest
  | .star e :: rest => e.origins ++ originsArgs rest
  | .doubleStar e :: rest => e.origins ++ originsArgs rest

/-- The names of the entries of a dictionary display. -/
def originsItems : List DictItem → List Origin
  | [] => []
  | .pair key value :: rest => key.origins ++ (value.origins ++ originsItems rest)
  | .splat e :: rest => e.origins ++ originsItems rest

/-- The names of several targets, each taken from the range variable behind it. -/
def originsUnpacked : List Expr → List Origin
  | [] => []
  | e :: rest => e.origins ++ .generated :: originsUnpacked rest

/-- The names of the clauses of a comprehension. What it goes through `first` is evaluated outside.
-/
def originsClauses (binder : Binder) (first : Bool) : List Clause → List Origin
  | [] => []
  | .forIn (.tuple targets) iter :: rest =>
    .generated :: ((if first then iter.origins else iter.origins.map (within binder)) ++
      ((originsUnpacked targets).map (within binder) ++ originsClauses binder false rest))
  | .forIn (.list targets) iter :: rest =>
    .generated :: ((if first then iter.origins else iter.origins.map (within binder)) ++
      ((originsUnpacked targets).map (within binder) ++ originsClauses binder false rest))
  | .forIn target iter :: rest =>
    target.origins.map (within binder) ++
      ((if first then iter.origins else iter.origins.map (within binder)) ++
        originsClauses binder false rest)
  | .onlyIf test :: rest => test.origins.map (within binder) ++ originsClauses binder first rest

end

mutual

/-- The names of a target. -/
def targetOrigins : Expr → List Origin
  | .tuple items => targetOriginsAll items
  | .list items => targetOriginsAll items
  | .starred value => value.targetOrigins
  | target => target.origins

/-- The names of targets, from the left. -/
def targetOriginsAll : List Expr → List Origin
  | [] => []
  | target :: rest => target.targetOrigins ++ targetOriginsAll rest

end

mutual

/-- The names of something that is deleted. -/
def deletedOrigins : Expr → List Origin
  | .tuple items => deletedOriginsAll items
  | .list items => deletedOriginsAll items
  | target => target.origins

/-- The names of things that are deleted, from the left. -/
def deletedOriginsAll : List Expr → List Origin
  | [] => []
  | target :: rest => target.deletedOrigins ++ deletedOriginsAll rest

end

end Expr

open Python.Expr (originsList originsOption targetOriginsAll deletedOriginsAll)

/-! ## Statements -/

/-- What the lines for a statement depend on besides the statement itself. -/
structure Inside where
  /-- The function is a generator, so that `return` only ends it. -/
  generator : Bool
  /-- A `break` clears the mark of the loop that it leaves. -/
  marked : Bool

/-- Inside a loop or a `match` without a mark. -/
def Inside.unmarked (here : Inside) : Inside :=
  { here with marked := false }

/-- Inside a loop with a mark. -/
def Inside.withMark (here : Inside) : Inside :=
  { here with marked := true }

/-- The names of an assignment: the others take the value from the first target, whose names are
written again. -/
def assignOrigins (value : Expr) : List Expr → List Origin
  | [] => value.origins
  | first :: rest =>
    first.targetOrigins ++
      (value.origins ++ rest.flatMap fun target => target.targetOrigins ++ first.targetOrigins)

/-- The names of an augmented assignment: a helper takes the old value as an argument. -/
def augAssignOrigins (target : Expr) (op : BinaryOp) (value : Expr) : List Origin :=
  match op with
  | .pow | .floorDiv | .matMul => target.origins ++ .generated :: (target.origins ++ value.origins)
  | _ => target.origins ++ value.origins

/-- The names of what a `with` item acquires. -/
def WithItem.origins (item : WithItem) : List Origin :=
  (item.target.elim [] Expr.targetOrigins) ++ item.context.origins

mutual

/-- The names of a statement. -/
def StmtKind.origins (here : Inside) : StmtKind → List Origin
  | .expr (.yieldFrom source) => source.origins ++ [.generated]
  | .expr value => value.origins
  | .assign targets value => assignOrigins value targets
  | .annAssign _ _ none => []
  | .annAssign target _ (some value) => target.targetOrigins ++ value.origins
  | .augAssign target op value => augAssignOrigins target op value
  | .ifChain branches orelse => originsBranches here branches ++ originsOrelse here orelse
  | .whileLoop test body none => test.origins ++ originsBlock here.unmarked body
  | .whileLoop test body (some orelse) =>
    test.origins ++ (originsBlock here.withMark body ++ .generated :: originsBlock here orelse)
  | .forLoop target iter body none _ =>
    iter.origins ++ (target.targetOrigins ++ .generated :: originsBlock here.unmarked body)
  | .forLoop target iter body (some orelse) _ =>
    iter.origins ++
      (.generated :: (target.targetOrigins ++ .generated :: originsBlock here.unmarked body) ++
      .generated :: originsBlock here orelse)
  | .tryBlock body handlers none finalbody =>
    .generated :: (originsBlock here body ++ .generated ::
      (originsHandlers here handlers ++ originsOrelse here finalbody))
  | .tryBlock body handlers (some orelse) finalbody =>
    .generated :: (originsBlock here body ++ .generated ::
      (originsHandlers here handlers ++ originsOrelse here finalbody) ++ .generated ::
        originsBlock here orelse)
  | .withBlock items body _ => items.flatMap WithItem.origins ++ originsBlock here body
  | .functionDef ⟨name, params, returns, body, decorators, isAsync⟩ =>
    originsList (FunctionDef.head false ⟨name, params, returns, body, decorators, isAsync⟩) ++
      (originsBlock ⟨yieldsIn body, false⟩ body).map
        (.within (.function ⟨name, params, returns, body, decorators, isAsync⟩))
  | .matchBlock subject cases => subject.origins ++ originsCases here.unmarked cases
  | .returnStmt value => if here.generator then [] else originsOption value
  | .raiseStmt exc _ => originsOption exc
  | .deleteStmt targets => deletedOriginsAll targets
  | .assertStmt test msg => .generated :: (test.origins ++ originsOption msg)
  | .breakStmt => if here.marked then [.generated] else []
  | _ => []

/-- The names of the statements of a block. -/
def originsBlock (here : Inside) : List Stmt → List Origin
  | [] => []
  | ⟨kind, _⟩ :: rest => kind.origins here ++ originsBlock here rest

/-- The names of a block that may be missing. -/
def originsOrelse (here : Inside) : Option (List Stmt) → List Origin
  | none => []
  | some body => originsBlock here body

/-- The names of the branches of an `if`. -/
def originsBranches (here : Inside) : List Branch → List Origin
  | [] => []
  | ⟨test, body⟩ :: rest => test.origins ++ (originsBlock here body ++ originsBranches here rest)

/-- The names of the `except` clauses of a `try`. -/
def originsHandlers (here : Inside) : List Handler → List Origin
  | [] => []
  | ⟨types, _, body, _⟩ :: rest => originsList types ++
      (originsBlock here body ++ originsHandlers here rest)

/-- The names of the cases of a `match`. -/
def originsCases (here : Inside) : List MatchCase → List Origin
  | [] => []
  | ⟨pattern, guard, body, _⟩ :: rest =>
    originsList pattern.literals ++
      (originsOption guard ++ (originsBlock here body ++ originsCases here rest))

end

/-- The names of the body of a function. -/
def FunctionDef.bodyOrigins (definition : FunctionDef) : List Origin :=
  originsBlock ⟨yieldsIn definition.body, false⟩ definition.body

end PythonToCSharp.Python
