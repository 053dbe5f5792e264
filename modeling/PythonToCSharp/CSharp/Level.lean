/-!
The levels of C#'s operators, from the loosest to the tightest. An operand is put between
parentheses when its level is looser than the one its place asks for.
-/

namespace PythonToCSharp.CSharp

/-- How tightly an expression binds. Assignments, lambdas and queries are the loosest. -/
inductive Level where
  | lowest
  | conditional
  | or
  | and
  | bitOr
  | bitXor
  | bitAnd
  | equality
  | relational
  | shift
  | additive
  | multiplicative
  | unary
  | primary
  deriving DecidableEq, Repr

namespace Level

def rank : Level → Nat
  | .lowest => 0
  | .conditional => 1
  | .or => 2
  | .and => 3
  | .bitOr => 4
  | .bitXor => 5
  | .bitAnd => 6
  | .equality => 7
  | .relational => 8
  | .shift => 9
  | .additive => 10
  | .multiplicative => 11
  | .unary => 12
  | .primary => 13

/-- The next tighter level, which the right operand of a left-associative operator asks for. -/
def tighter : Level → Level
  | .lowest => .conditional
  | .conditional => .or
  | .or => .and
  | .and => .bitOr
  | .bitOr => .bitXor
  | .bitXor => .bitAnd
  | .bitAnd => .equality
  | .equality => .relational
  | .relational => .shift
  | .shift => .additive
  | .additive => .multiplicative
  | .multiplicative => .unary
  | .unary => .primary
  | .primary => .primary

instance : LE Level := ⟨fun a b => a.rank ≤ b.rank⟩

instance : LT Level := ⟨fun a b => a.rank < b.rank⟩

instance (a b : Level) : Decidable (a ≤ b) := inferInstanceAs (Decidable (a.rank ≤ b.rank))

instance (a b : Level) : Decidable (a < b) := inferInstanceAs (Decidable (a.rank < b.rank))

theorem rank_injective {a b : Level} (h : a.rank = b.rank) : a = b := by
  cases a <;> cases b <;> first | rfl | exact absurd h (by decide)

theorem rank_tighter {a : Level} (h : a ≠ .primary) : a.tighter.rank = a.rank + 1 := by
  cases a <;> first | rfl | exact absurd rfl h

end Level

end PythonToCSharp.CSharp
