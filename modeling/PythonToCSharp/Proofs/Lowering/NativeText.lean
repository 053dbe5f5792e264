import PythonToCSharp.Proofs.Grammar.Parentheses
import PythonToCSharp.Proofs.Lowering.OperatorText

/-!
The expressions whose operators C# has, over names and decimal integers: no pair of parentheses in
the text that is written for one of them can be left out.
-/

namespace PythonToCSharp.Lowering

open CSharp (NativeTree Parses Reads isDecimal isIdentifier)

/-- Whether C# has the operator, so that no helper is called for it. -/
def isNative : Python.BinaryOp → Bool
  | .pow | .floorDiv | .matMul => false
  | _ => true

/-- Whether a comparison is one of values by an operator that C# has. -/
def isByValue : Python.CmpOp → Bool
  | .is | .isNot | .isIn | .notIn => false
  | _ => true

/-- The expressions of operators that C# has over names and decimal integers, with single
comparisons. -/
inductive NativeExpr : Python.Expr → Prop where
  | name {id : String} (h : isIdentifier id.toList = true) : NativeExpr (.name id)
  | int {text : String} (h : isDecimal text.toList = true) : NativeExpr (.int text)
  | binary {left right : Python.Expr} {op : Python.BinaryOp} (ho : isNative op = true)
      (hl : NativeExpr left) (hr : NativeExpr right) : NativeExpr (.binary left op right)
  | unary {operand : Python.Expr} (op : Python.UnaryOp) (h : NativeExpr operand) :
      NativeExpr (.unary op operand)
  | boolean {left right : Python.Expr} (op : Python.BoolOp) (hl : NativeExpr left)
      (hr : NativeExpr right) : NativeExpr (.boolean op left right)
  | compare {left right : Python.Expr} {op : Python.CmpOp} (ho : isByValue op = true)
      (hl : NativeExpr left) (hr : NativeExpr right) : NativeExpr (.compare left [(op, right)])
  | ifExp {test body orelse : Python.Expr} (ht : NativeExpr test) (hb : NativeExpr body)
      (ho : NativeExpr orelse) : NativeExpr (.ifExp test body orelse)

namespace NativeExpr

variable {e : Python.Expr}

theorem operatorExpr (h : NativeExpr e) : OperatorExpr e := by
  induction h with
  | name h => exact .name h
  | int h => exact .int h
  | binary _ _ _ ihl ihr => exact .binary _ ihl ihr
  | unary op _ ih => exact .unary op ih
  | boolean op _ _ ihl ihr => exact .boolean op ihl ihr
  | compare _ _ _ ihl ihr =>
    refine .compare ihl (by simp) ?_
    intro link hlink
    rw [List.mem_singleton.1 hlink]
    exact ihr
  | ifExp _ _ _ iht ihb iho => exact .ifExp iht ihb iho

/-- The tree of such an expression has operators only, whatever the helpers are called. -/
theorem nativeTree (h : NativeExpr e) (names : LibraryNames) (self : Option String) :
    NativeTree (tree names self e) := by
  induction h with
  | name h => exact .name (isVariable_spelling h self)
  | int h => exact .decimal h
  | @binary left right op ho _ _ ihl ihr =>
    rw [tree]
    cases op with
    | pow | floorDiv | matMul => cases ho
    | _ => exact .binary _ ihl ihr
  | unary op _ ih => cases op <;> exact .unary _ ih
  | boolean op _ _ ihl ihr => cases op <;> exact .binary _ ihl ihr
  | @compare left right op ho _ _ ihl ihr =>
    rw [tree, chainTree]
    cases op with
    | is | isNot | isIn | notIn => cases ho
    | _ => exact .binary _ ihl ihr
  | ifExp _ _ _ iht ihb iho => exact .conditional iht ihb iho

/-- Lowering makes the tree, in every state. -/
theorem lowered (h : NativeExpr e) (names : LibraryNames) (s : State) :
    (lowerExpr names e s).1 = tree names s.scopes.receiver e :=
  (yields_lowerExpr h.operatorExpr s rfl).1

end NativeExpr

/-- The text of such an expression reads as one tree, and as that tree no more when an opening
parenthesis and a closing one behind it are left out, be they a pair or not. -/
theorem native_parentheses_needed (names : LibraryNames) {e : Python.Expr}
    (he : NativeExpr e) (s : State) :
    (∀ other, Parses .lowest (lowerExpr names e s).1.text other ↔
      other = tree names s.scopes.receiver e) ∧ ∀ before inside behind,
        (lowerExpr names e s).1.text.toList = before ++ '(' :: (inside ++ ')' :: behind) →
          ∀ other, Parses .lowest (lowerExpr names e s).1.text other →
            ¬Parses .lowest (String.ofList (before ++ (inside ++ behind))) other := by
  have hnative : NativeTree (tree names s.scopes.receiver e) := he.nativeTree names _
  have hreads : Reads .lowest _ (tree names s.scopes.receiver e) :=
    hnative.operatorTree.reads.of_le (Nat.zero_le _)
  rw [he.lowered names s]
  refine ⟨hreads.parses_iff, ?_⟩
  intro before inside behind htext other hother
  rw [(hreads.parses_iff other).1 hother]
  exact hnative.not_parses_erased htext

/-- `-(-a) * (b - (c - 1)) if (p if q else r) else not (a < b)`, in which every reason for
parentheses occurs. -/
def crowdedChoice : Python.Expr :=
  .ifExp (.ifExp (.name "q") (.name "p") (.name "r"))
    (.binary (.unary .neg (.unary .neg (.name "a"))) .mul
      (.binary (.name "b") .sub (.binary (.name "c") .sub (.int "1"))))
    (.unary .not (.compare (.name "a") [(.lt, .name "b")]))

theorem crowdedChoice_parentheses_needed :
    NativeExpr crowdedChoice ∧
      ∀ before inside behind,
        "(q ? p : r) ? -(-a) * (b - (c - 1)) : !(a < b)".toList = before ++ '(' ::
          (inside ++ ')' :: behind) →
          ¬Parses .lowest (String.ofList (before ++ (inside ++ behind)))
            (tree {} none crowdedChoice) := by
  have ha : NativeExpr (.name "a") := .name (by decide)
  have hb : NativeExpr (.name "b") := .name (by decide)
  have hdifference : NativeExpr (.binary (.name "b") .sub (.binary (.name "c") .sub (.int "1"))) :=
    .binary rfl hb (.binary rfl (.name (by decide)) (.int (by decide)))
  have he : NativeExpr crowdedChoice :=
    .ifExp (.ifExp (.name (by decide)) (.name (by decide)) (.name (by decide)))
      (.binary rfl (.unary .neg (.unary .neg ha)) hdifference) (.unary .not (.compare rfl ha hb))
  obtain ⟨hparses, hneeded⟩ := native_parentheses_needed {} he {}
  exact ⟨he, fun before inside behind htext =>
    hneeded before inside behind htext _ ((hparses _).2 rfl)⟩

end PythonToCSharp.Lowering
