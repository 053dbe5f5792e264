import PythonToCSharp.Proofs.Grammar.Token

/-!
The grammar of C#'s operator expressions, level by level, and that it is unambiguous.

`Derives` is the grammar: operators with two operands group to the left, the conditional and the
assignment to the right. `parse` reads tokens by climbing from one operator to the next. It finds
every derivation, so tokens derive one tree at most.
-/

namespace PythonToCSharp.CSharp

/-! ## The grammar -/

mutual

/-- The tokens are an expression of at least the level, with the given tree. -/
inductive Derives : Level → List Token → Expr → Prop where
  | name (text : String) : Derives .primary [.name text] (.name text)
  | literal (text : String) : Derives .primary [.literal text] (.literal text)
  | parens {ts : List Token} {e : Expr} (he : Derives .lowest ts e) :
      Derives .primary (.symbol "(" :: (ts ++ [.symbol ")"])) e
  | member {ts : List Token} {e : Expr} (he : Derives .primary ts e) (field : String) :
      Derives .primary (ts ++ [.symbol ".", .name field]) (.member e field)
  | index {ts us : List Token} {e : Expr} {es : List Expr} (he : Derives .primary ts e)
      (hes : DerivesAll us es) :
      Derives .primary (ts ++ .symbol "[" :: (us ++ [.symbol "]"])) (.index e es)
  | invoke {ts : List Token} {e : Expr} (he : Derives .primary ts e) :
      Derives .primary (ts ++ [.symbol "(", .symbol ")"]) (.call e [])
  | call {ts us : List Token} {e : Expr} {es : List Expr} (he : Derives .primary ts e)
      (hes : DerivesAll us es) :
      Derives .primary (ts ++ .symbol "(" :: (us ++ [.symbol ")"])) (.call e (es.map .positional))
  | unary (op : UnaryOp) {ts : List Token} {e : Expr} (he : Derives .unary ts e) :
      Derives .unary (.symbol op.symbol.toString :: ts) (.unary op e)
  | binary (op : BinaryOp) {ls rs : List Token} {l r : Expr} (hl : Derives op.level ls l)
      (hr : Derives op.level.tighter rs r) :
      Derives op.level (ls ++ .symbol op.symbol :: rs) (.binary op l r)
  | conditional {ts bs os : List Token} {t b o : Expr} (ht : Derives .or ts t)
      (hb : Derives .lowest bs b) (ho : Derives .conditional os o) :
      Derives .conditional (ts ++ .symbol "?" :: (bs ++ .symbol ":" :: os)) (.conditional t b o)
  | assign (target : String) {ts : List Token} {e : Expr} (he : Derives .lowest ts e) :
      Derives .lowest (.name target :: .symbol "=" :: ts) (.assign target e)
  /-- A tighter expression may stand where a looser one is asked for. -/
  | loosen (level : Level) {ts : List Token} {e : Expr} (he : Derives level.tighter ts e) :
      Derives level ts e

/-- The tokens are expressions with commas between them, one at least. -/
inductive DerivesAll : List Token → List Expr → Prop where
  | last {ts : List Token} {e : Expr} (he : Derives .lowest ts e) : DerivesAll ts [e]
  | more {ts us : List Token} {e : Expr} {es : List Expr} (he : Derives .lowest ts e)
      (hes : DerivesAll us es) : DerivesAll (ts ++ .symbol "," :: us) (e :: es)

end

/-- The text falls into tokens that are an expression of at least the level, with the given tree. -/
def Parses (level : Level) (text : String) (tree : Expr) : Prop :=
  ∃ tokens, tokenize text.toList = some tokens ∧ Derives level tokens tree

/-! ## Reading tokens -/

/-- How an expression goes on behind an operand. -/
inductive Continuation where
  | member
  | index
  | call
  | binary (op : BinaryOp)
  | conditional
  | assign
  deriving DecidableEq

/-- The level of the expression that is made by going on. -/
def Continuation.level : Continuation → Level
  | .member | .index | .call => .primary
  | .binary op => op.level
  | .conditional => .conditional
  | .assign => .lowest

/-- All operators with two operands. -/
def BinaryOp.all : List BinaryOp :=
  [.add, .sub, .mul, .div, .mod, .leftShift, .rightShift, .bitOr, .bitXor, .bitAnd, .and, .or, .eq,
    .ne, .lt, .le, .gt, .ge]

/-- How an expression goes on with a token. -/
def Token.continuation? : Token → Option Continuation
  | .symbol text =>
    if text = "." then some .member
    else if text = "[" then some .index
    else if text = "(" then some .call
    else if text = "?" then some .conditional
    else if text = "=" then some .assign
    else (BinaryOp.all.find? (·.symbol = text)).map .binary
  | _ => none

/-- The operator with one operand that is written so. -/
def UnaryOp.ofSymbol? (text : String) : Option UnaryOp :=
  [.neg, .pos, .invert, .not].find? fun op : UnaryOp => op.symbol.toString = text

/-- What stands behind an expected symbol. -/
def expect (text : String) : List Token → Option (List Token)
  | .symbol found :: rest => if found = text then some rest else none
  | _ => none

/-- An expected name, and what stands behind it. -/
def expectName : List Token → Option (String × List Token)
  | .name text :: rest => some (text, rest)
  | _ => none

/-- The name that is assigned to, if the expression is one. -/
def assignable? : Expr → Option String
  | .name text => some text
  | _ => none

mutual

/-- The expression of at least the level at the front of the tokens, and what stands behind it. -/
def parse (least : Level) : List Token → Option (Expr × List Token)
  | [] => none
  | .name text :: rest => climb least (.name text) rest
  | .literal text :: rest => climb least (.literal text) rest
  | .symbol text :: rest =>
    if text = "(" then
      (parse .lowest rest).bind fun (e, behind) =>
        (expect ")" behind).bind fun behind =>
          if behind.length ≤ rest.length then climb least e behind else none
    else
      (UnaryOp.ofSymbol? text).bind fun op =>
        if least ≤ .unary then
          (parse .unary rest).bind fun (e, behind) =>
            if behind.length ≤ rest.length then climb least (.unary op e) behind else none
        else none
termination_by tokens => (tokens.length, 0)

/-- Goes on behind the operand `e`, as long as the level is not looser than `least`. -/
def climb (least : Level) (e : Expr) : List Token → Option (Expr × List Token)
  | [] => some (e, [])
  | token :: rest =>
    match token.continuation? with
    | none => some (e, token :: rest)
    | some next =>
      if next.level < least then some (e, token :: rest)
      else
        match next with
        | .member =>
          (expectName rest).bind fun (field, behind) =>
            if behind.length ≤ rest.length then climb least (.member e field) behind else none
        | .index =>
          (parseAll rest).bind fun (es, behind) =>
            (expect "]" behind).bind fun behind =>
              if behind.length ≤ rest.length then climb least (.index e es) behind else none
        | .call =>
          match expect ")" rest with
          | some behind =>
            if behind.length ≤ rest.length then climb least (.call e []) behind else none
          | none =>
            (parseAll rest).bind fun (es, behind) =>
              (expect ")" behind).bind fun behind =>
                if behind.length ≤ rest.length then
                  climb least (.call e (es.map .positional)) behind
                else none
        | .binary op =>
          (parse op.level.tighter rest).bind fun (right, behind) =>
            if behind.length ≤ rest.length then climb least (.binary op e right) behind else none
        | .conditional =>
          (parse .lowest rest).bind fun (body, middle) =>
            (expect ":" middle).bind fun middle =>
              if middle.length ≤ rest.length then
                (parse .conditional middle).bind fun (orelse, behind) =>
                  if behind.length ≤ rest.length then
                    climb least (.conditional e body orelse) behind
                  else none
              else none
        | .assign =>
          (assignable? e).bind fun target =>
            (parse .lowest rest).map fun (value, behind) => (.assign target value, behind)
termination_by tokens => (tokens.length, 0)

/-- The expressions between commas at the front of the tokens, and what stands behind them. -/
def parseAll (tokens : List Token) : Option (List Expr × List Token) :=
  (parse .lowest tokens).bind fun (e, behind) =>
    match expect "," behind with
    | none => some ([e], behind)
    | some behind =>
      if behind.length < tokens.length then
        (parseAll behind).map fun (es, behind) => (e :: es, behind)
      else none
termination_by (tokens.length, 1)

end

/-! ## Where reading stops -/

/-- Whether going on at a level groups to the left. -/
def Level.groupsLeft : Level → Bool
  | .lowest | .conditional | .unary => false
  | _ => true

/-- What stands behind an expression of a level that is read in full. -/
def Ends (level : Level) (rest : List Token) : Prop :=
  ∀ token ∈ rest.head?, ∀ next ∈ token.continuation?,
    next.level < level ∨ next.level = level ∧ level.groupsLeft = true

/-- Nothing goes on at the level or a tighter one. -/
def Stops (level : Level) (rest : List Token) : Prop :=
  ∀ token ∈ rest.head?, ∀ next ∈ token.continuation?, next.level < level

theorem Level.rank_le_rank_tighter (level : Level) : level.rank ≤ level.tighter.rank := by
  cases level <;> decide

theorem Level.rank_le_primary (level : Level) : level.rank ≤ Level.primary.rank := by
  cases level <;> decide

theorem BinaryOp.groupsLeft_level (op : BinaryOp) : op.level.groupsLeft = true := by
  cases op <;> rfl

theorem BinaryOp.level_ne_primary (op : BinaryOp) : op.level ≠ .primary := by
  cases op <;> decide

theorem continuation?_binary (op : BinaryOp) :
    (Token.symbol op.symbol).continuation? = some (.binary op) := by
  cases op <;> decide

theorem UnaryOp.ofSymbol?_symbol (op : UnaryOp) :
    UnaryOp.ofSymbol? op.symbol.toString = some op := by
  cases op <;> decide

theorem UnaryOp.symbol_ne_paren (op : UnaryOp) : op.symbol.toString ≠ "(" := by
  cases op <;> decide

namespace Ends

theorem nil (level : Level) : Ends level [] := by
  intro token h
  cases h

/-- A mark that closes or separates ends every expression. -/
theorem of_mark {token : Token} (h : token.continuation? = none) (level : Level)
    (rest : List Token) : Ends level (token :: rest) := by
  intro found hf next hn
  cases hf
  rw [h] at hn
  cases hn

theorem of_lt {token : Token} {next : Continuation} {level : Level}
    (h : token.continuation? = some next)
    (hl : next.level < level) (rest : List Token) : Ends level (token :: rest) := by
  intro found hf other ho
  cases hf
  rw [h] at ho
  cases ho
  exact .inl hl

theorem binary (op : BinaryOp) (rest : List Token) : Ends op.level (.symbol op.symbol :: rest) := by
  intro found hf other ho
  cases hf
  rw [continuation?_binary] at ho
  cases ho
  exact .inr ⟨rfl, op.groupsLeft_level⟩

theorem primary (rest : List Token) : Ends .primary rest := by
  intro token _ next _
  have h : next.level.rank ≤ Level.primary.rank := next.level.rank_le_primary
  by_cases he : next.level = .primary
  · exact .inr ⟨he, rfl⟩
  · refine .inl (Nat.lt_of_le_of_ne h ?_)
    intro hr
    exact he (Level.rank_injective hr)

theorem stops_tighter {level : Level} {rest : List Token} (h : Ends level rest)
    (hp : level ≠ .primary) : Stops level.tighter rest := by
  intro token ht next hn
  have hr : level.tighter.rank = level.rank + 1 := Level.rank_tighter hp
  show next.level.rank < level.tighter.rank
  rcases h token ht next hn with hlt | ⟨heq, -⟩
  · have hlt' : next.level.rank < level.rank := hlt
    omega
  · rw [heq]
    omega

/-- What ends an expression of a level ends the tighter ones that stand for it. -/
theorem tighter {level : Level} {rest : List Token} (h : Ends level rest) :
    Ends level.tighter rest := by
  by_cases hp : level = .primary
  · subst hp
    exact h
  · intro token ht next hn
    exact .inl (h.stops_tighter hp token ht next hn)

theorem stops {level : Level} {rest : List Token} (h : Ends level rest)
    (hg : level.groupsLeft = false) : Stops level rest := by
  intro token ht next hn
  rcases h token ht next hn with hlt | ⟨-, hl⟩
  · exact hlt
  · exact absurd hl (by simp [hg])

end Ends

theorem climb_of_stops {least : Level} {rest : List Token} (h : Stops least rest) (e : Expr) :
    climb least e rest = some (e, rest) := by
  cases rest with
  | nil => rw [climb]
  | cons token rest =>
    rw [climb]
    cases hc : token.continuation? with
    | none => rfl
    | some next => exact if_pos (h token rfl next hc)

/-- Nothing goes on with a mark that closes or separates. -/
theorem climb_of_mark {token : Token} (h : token.continuation? = none) (least : Level) (e : Expr)
    (rest : List Token) : climb least e (token :: rest) = some (e, token :: rest) := by
  refine climb_of_stops ?_ e
  intro found hf next hn
  cases hf
  rw [h] at hn
  cases hn

/-! ## Every derivation is found -/

@[simp] theorem expect_self (text : String) (rest : List Token) :
    expect text (.symbol text :: rest) = some rest :=
  if_pos rfl

theorem Level.not_lt_of_le {a b : Level} (h : a ≤ b) : ¬b < a :=
  Nat.not_lt.2 h

theorem Level.le_primary (level : Level) : level ≤ .primary :=
  level.rank_le_primary

theorem length_le_behind (ts : List Token) (token : Token) (rest : List Token) :
    rest.length ≤ (ts ++ token :: rest).length := by
  rw [List.length_append, List.length_cons]
  omega

theorem climb_member (least : Level) (e : Expr) (field : String) (rest : List Token) :
    climb least e (.symbol "." :: .name field :: rest) = climb least (.member e field) rest := by
  have hc : (Token.symbol ".").continuation? = some .member := by decide
  rw [climb]
  simp [hc, Continuation.level, Level.not_lt_of_le least.le_primary, expectName]

theorem climb_index (least : Level) (e : Expr) {us rest : List Token} {es : List Expr}
    (h : parseAll (us ++ .symbol "]" :: rest) = some (es, .symbol "]" :: rest)) :
    climb least e (.symbol "[" :: (us ++ .symbol "]" :: rest)) =
      climb least (.index e es) rest := by
  have hc : (Token.symbol "[").continuation? = some .index := by decide
  rw [climb]
  simp [hc, Continuation.level, Level.not_lt_of_le least.le_primary, h, length_le_behind us,
    -List.length_append]

theorem climb_invoke (least : Level) (e : Expr) (rest : List Token) :
    climb least e (.symbol "(" :: .symbol ")" :: rest) = climb least (.call e []) rest := by
  have hc : (Token.symbol "(").continuation? = some .call := by decide
  rw [climb]
  simp [hc, Continuation.level, Level.not_lt_of_le least.le_primary]

theorem climb_call (least : Level) (e : Expr) {us rest : List Token} {es : List Expr}
    (hn : expect ")" (us ++ .symbol ")" :: rest) = none)
    (h : parseAll (us ++ .symbol ")" :: rest) = some (es, .symbol ")" :: rest)) :
    climb least e (.symbol "(" :: (us ++ .symbol ")" :: rest)) =
      climb least (.call e (es.map .positional)) rest := by
  have hc : (Token.symbol "(").continuation? = some .call := by decide
  rw [climb]
  simp [hc, Continuation.level, Level.not_lt_of_le least.le_primary, h, hn, length_le_behind us,
    -List.length_append]

theorem climb_binary {least : Level} {op : BinaryOp} (hl : least ≤ op.level) (e : Expr)
    {rs rest : List Token} {r : Expr} (h : parse op.level.tighter (rs ++ rest) = some (r, rest)) :
    climb least e (.symbol op.symbol :: (rs ++ rest)) = climb least (.binary op e r) rest := by
  rw [climb]
  simp [continuation?_binary, Continuation.level, Level.not_lt_of_le hl, h]

theorem climb_conditional {least : Level} (hl : least ≤ .conditional) (e : Expr)
    {bs os rest : List Token} {b o : Expr}
    (hb : parse .lowest (bs ++ .symbol ":" :: (os ++ rest)) = some (b, .symbol ":" :: (os ++ rest)))
    (ho : parse .conditional (os ++ rest) = some (o, rest)) :
    climb least e (.symbol "?" :: (bs ++ .symbol ":" :: (os ++ rest))) =
      climb least (.conditional e b o) rest := by
  have hc : (Token.symbol "?").continuation? = some .conditional := by decide
  have hlen : rest.length ≤ (bs ++ .symbol ":" :: (os ++ rest)).length := by
    simp only [List.length_append, List.length_cons]
    omega
  rw [climb]
  simp [hc, Continuation.level, Level.not_lt_of_le hl, hb, ho, hlen, length_le_behind bs,
    -List.length_append]

theorem climb_assign (target : String) {ts rest : List Token} {e : Expr}
    (h : parse .lowest (ts ++ rest) = some (e, rest)) :
    climb .lowest (.name target) (.symbol "=" :: (ts ++ rest)) = some (.assign target e, rest) := by
  have hc : (Token.symbol "=").continuation? = some .assign := by decide
  have hl : ¬Level.lowest < Level.lowest := by decide
  rw [climb]
  simp [hc, Continuation.level, hl, assignable?, h]

theorem parse_parens (least : Level) {ts rest : List Token} {e : Expr}
    (h : parse .lowest (ts ++ .symbol ")" :: rest) = some (e, .symbol ")" :: rest)) :
    parse least (.symbol "(" :: (ts ++ .symbol ")" :: rest)) = climb least e rest := by
  rw [parse]
  simp [h, length_le_behind ts, -List.length_append]

theorem parse_unary {least : Level} (hl : least ≤ .unary) (op : UnaryOp) {ts rest : List Token}
    {e : Expr} (h : parse .unary (ts ++ rest) = some (e, rest)) :
    parse least (.symbol op.symbol.toString :: (ts ++ rest)) = climb least (.unary op e) rest := by
  rw [parse, if_neg op.symbol_ne_paren, UnaryOp.ofSymbol?_symbol]
  simp [h, hl]

theorem parseAll_more {ts rest behind : List Token} {e : Expr} {es : List Expr}
    (h : parse .lowest (ts ++ .symbol "," :: rest) = some (e, .symbol "," :: rest))
    (hes : parseAll rest = some (es, behind)) :
    parseAll (ts ++ .symbol "," :: rest) = some (e :: es, behind) := by
  have hlt : rest.length < (ts ++ Token.symbol "," :: rest).length := by
    rw [List.length_append, List.length_cons]
    omega
  rw [parseAll, h]
  simp [hes, hlt, -List.length_append]

/-- No expression begins with a closing parenthesis. -/
theorem Derives.expect_close {level : Level} {ts : List Token} {e : Expr} (h : Derives level ts e)
    (rest : List Token) : expect ")" (ts ++ rest) = none :=
  match h with
  | .name _ | .literal _ | .assign _ _ => rfl
  | .parens _ => by
    rw [List.cons_append, expect, if_neg (by decide)]
  | .unary op _ => by
    rw [List.cons_append, expect, if_neg (by cases op <;> decide)]
  | .member he _ | .index he _ | .invoke he
  | .call he _ | .binary _ he _ | .conditional he _ _ => by
    rw [List.append_assoc]
    exact he.expect_close _
  | .loosen _ he => he.expect_close rest

theorem DerivesAll.expect_close {us : List Token} {es : List Expr} (h : DerivesAll us es)
    (rest : List Token) : expect ")" (us ++ rest) = none := by
  cases h with
  | last he => exact he.expect_close rest
  | more he _ =>
    rw [List.append_assoc]
    exact he.expect_close _

mutual

/-- Reading goes through the tokens of an expression and on behind it. -/
theorem Derives.parse_append {level : Level} {ts : List Token} {e : Expr} (h : Derives level ts e)
    {least : Level} (hl : least ≤ level) {rest : List Token} (hr : Ends level rest) :
    parse least (ts ++ rest) = climb least e rest :=
  match h with
  | .name _ => by
    rw [List.singleton_append, parse]
  | .literal _ => by
    rw [List.singleton_append, parse]
  | .parens he => by
    rw [List.cons_append, List.append_assoc]
    refine parse_parens least ?_
    exact (he.parse_append (Nat.le_refl _) (.of_mark rfl _ _)).trans (climb_of_mark rfl _ _ _)
  | .member he field => by
    rw [List.append_assoc, he.parse_append hl (.primary _)]
    exact climb_member least _ field rest
  | .index he hes => by
    rw [List.append_assoc, he.parse_append hl (.primary _), List.cons_append, List.append_assoc]
    exact climb_index least _ (hes.parseAll_append rfl rfl)
  | .invoke he => by
    rw [List.append_assoc, he.parse_append hl (.primary _)]
    exact climb_invoke least _ rest
  | .call he hes => by
    rw [List.append_assoc, he.parse_append hl (.primary _), List.cons_append, List.append_assoc]
    exact climb_call least _ (hes.expect_close _) (hes.parseAll_append rfl rfl)
  | .unary op he => by
    refine parse_unary hl op ?_
    exact (he.parse_append (Nat.le_refl _) hr).trans (climb_of_stops (hr.stops rfl) _)
  | .binary op hleft hright => by
    rw [List.append_assoc, List.cons_append, hleft.parse_append hl (.binary op _)]
    refine climb_binary hl _ ?_
    have hs := hr.stops_tighter op.level_ne_primary
    exact (hright.parse_append (Nat.le_refl _) hr.tighter).trans (climb_of_stops hs _)
  | .conditional ht hb ho => by
    have hor : least ≤ .or := Nat.le_trans hl (by decide)
    rw [List.append_assoc, List.cons_append, ht.parse_append hor (.of_lt rfl (by decide) _),
      List.append_assoc]
    refine climb_conditional hl _ ?_ ?_
    · exact (hb.parse_append (Nat.le_refl _) (.of_mark rfl _ _)).trans (climb_of_mark rfl _ _ _)
    · exact (ho.parse_append (Nat.le_refl _) hr).trans (climb_of_stops (hr.stops rfl) _)
  | .assign target he => by
    -- nothing is looser than an assignment
    obtain rfl : least = .lowest := Level.rank_injective (Nat.le_zero.1 hl)
    have hs : Stops .lowest rest := hr.stops rfl
    have hv := (he.parse_append (Nat.le_refl _) hr).trans (climb_of_stops hs _)
    rw [List.cons_append, parse, List.cons_append, climb_assign target hv, climb_of_stops hs]
  | .loosen level he => he.parse_append (Nat.le_trans hl level.rank_le_rank_tighter) hr.tighter

theorem DerivesAll.parseAll_append {us : List Token} {es : List Expr} (h : DerivesAll us es)
    {token : Token} {rest : List Token} (hc : token.continuation? = none)
    (hn : expect "," (token :: rest) = none) :
    parseAll (us ++ token :: rest) = some (es, token :: rest) :=
  match h with
  | .last he => by
    rw [parseAll, he.parse_append (Nat.le_refl _) (.of_mark hc _ _), climb_of_mark hc]
    simp [hn]
  | .more he hes => by
    rw [List.append_assoc, List.cons_append]
    refine parseAll_more ?_ (hes.parseAll_append hc hn)
    exact (he.parse_append (Nat.le_refl _) (.of_mark rfl _ _)).trans (climb_of_mark rfl _ _ _)

end

/-- Tokens derive one tree at most. -/
theorem Derives.unique {level : Level} {ts : List Token} {e e' : Expr} (h : Derives level ts e)
    (h' : Derives level ts e') : e = e' := by
  have hp : ∀ {tree : Expr}, Derives level ts tree → parse level ts = some (tree, []) := by
    intro tree ht
    have hr : Ends level [] := .nil level
    have hread := ht.parse_append (Nat.le_refl _) hr
    rw [List.append_nil, climb] at hread
    exact hread
  have heq := (hp h).symm.trans (hp h')
  simpa using heq

end PythonToCSharp.CSharp
