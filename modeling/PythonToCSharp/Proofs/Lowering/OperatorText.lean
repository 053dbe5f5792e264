import PythonToCSharp.Proofs.Grammar.Printing
import PythonToCSharp.Proofs.Lowering.Rendering

/-!
Operator expressions: what they are in Python, which C# tree each of them stands for, and that the
text written for them reads as that tree and as no other, at every level that a place may ask for.
-/

namespace PythonToCSharp.Lowering

open CSharp (escapeIdentifier isIdentifier isDecimal isName isVariable OperatorTree Parses Reads)

/-! ## The trees that operator expressions stand for -/

/-- The expressions of operators over names, decimal integers and the three constants, with
attributes, subscripts and calls by position. -/
inductive OperatorExpr : Python.Expr → Prop where
  | name {id : String} (h : isIdentifier id.toList = true) : OperatorExpr (.name id)
  | int {text : String} (h : isDecimal text.toList = true) : OperatorExpr (.int text)
  | bool (value : Bool) : OperatorExpr (.bool value)
  | none : OperatorExpr .none
  | binary {left right : Python.Expr} (op : Python.BinaryOp) (hl : OperatorExpr left)
      (hr : OperatorExpr right) : OperatorExpr (.binary left op right)
  | unary {operand : Python.Expr} (op : Python.UnaryOp) (h : OperatorExpr operand) :
      OperatorExpr (.unary op operand)
  | boolean {left right : Python.Expr} (op : Python.BoolOp) (hl : OperatorExpr left)
      (hr : OperatorExpr right) : OperatorExpr (.boolean op left right)
  | compare {left : Python.Expr} {links : List (Python.CmpOp × Python.Expr)}
      (hl : OperatorExpr left)
      (hn : links ≠ []) (h : ∀ link ∈ links, OperatorExpr link.2) :
        OperatorExpr (.compare left links)
  | ifExp {test body orelse : Python.Expr} (ht : OperatorExpr test) (hb : OperatorExpr body)
      (ho : OperatorExpr orelse) : OperatorExpr (.ifExp test body orelse)
  | named {target : String} {value : Python.Expr} (ht : isIdentifier target.toList = true)
      (hv : OperatorExpr value) : OperatorExpr (.named target value)
  | member {value : Python.Expr} {attr : String} (hv : OperatorExpr value)
      (ha : isIdentifier attr.toList = true) : OperatorExpr (.attribute value attr)
  | subscript {value : Python.Expr} {index : List Python.Expr} (hv : OperatorExpr value)
      (hn : index ≠ [])
      (hi : ∀ item ∈ index, OperatorExpr item) : OperatorExpr (.subscript value index)
  | call {func : Python.Expr} {items : List Python.Expr} (hf : OperatorExpr func)
      (hi : ∀ item ∈ items, OperatorExpr item) : OperatorExpr (.call func (items.map .positional))

/-- How a name is spelled where `self` stands for the instance. -/
def spelling (self : Option String) (id : String) : String :=
  if self = some id then "this" else escapeIdentifier id

theorem escapeIdentifier_ne_this (id : String) : escapeIdentifier id ≠ "this" := by
  have hkeyword : CSharp.keywords.contains "this" = true := by decide
  unfold escapeIdentifier
  split
  · intro h
    have hhead := congrArg (·.toList.head?) h
    rw [String.toList_append] at hhead
    exact nomatch Option.some.inj hhead
  · next hid =>
    rintro rfl
    exact hid hkeyword

/-- Only the receiver is `this`. -/
theorem spelling_eq_this_iff {self : Option String} {id : String} :
    spelling self id = "this" ↔ self = some id := by
  unfold spelling
  split
  · next h => exact ⟨fun _ => h, fun _ => rfl⟩
  · next h => exact ⟨fun heq => absurd heq (escapeIdentifier_ne_this id), fun heq => absurd heq h⟩

/-- The tree for an operator with two operands: the three that C# lacks are calls. -/
def binaryTree (names : LibraryNames) (left right : CSharp.Expr) : Python.BinaryOp → CSharp.Expr
  | .add => .binary .add left right
  | .sub => .binary .sub left right
  | .mul => .binary .mul left right
  | .div => .binary .div left right
  | .mod => .binary .mod left right
  | .leftShift => .binary .leftShift left right
  | .rightShift => .binary .rightShift left right
  | .bitOr => .binary .bitOr left right
  | .bitXor => .binary .bitXor left right
  | .bitAnd => .binary .bitAnd left right
  | .pow => .call (.name names.powFn) [.positional left, .positional right]
  | .floorDiv => .call (.name names.floordivFn) [.positional left, .positional right]
  | .matMul => .call (.name names.matmulFn) [.positional left, .positional right]

/-- The tree for one comparison, given whether the right operand is `None`. -/
def linkTree (left right : CSharp.Expr) (withNone : Bool) : Python.CmpOp → CSharp.Expr
  | .eq => .binary .eq left right
  | .notEq => .binary .ne left right
  | .lt => .binary .lt left right
  | .le => .binary .le left right
  | .gt => .binary .gt left right
  | .ge => .binary .ge left right
  | .is =>
    if withNone then .binary .eq left right
    else .call (.name "ReferenceEquals") [.positional left, .positional right]
  | .isNot =>
    if withNone then .binary .ne left right
    else .unary .not (.call (.name "ReferenceEquals") [.positional left, .positional right])
  | .isIn => .call (.member right "Contains") [.positional left]
  | .notIn => .unary .not (.call (.member right "Contains") [.positional left])

mutual

/-- The tree of an operator expression where `self` stands for the instance. -/
def tree (names : LibraryNames) (self : Option String) : Python.Expr → CSharp.Expr
  | .name id => .name (spelling self id)
  | .int text => .literal text
  | .bool value => .literal (if value then "true" else "false")
  | .none => .literal "null"
  | .binary left op right => binaryTree names (tree names self left) (tree names self right) op
  | .unary .neg operand => .unary .neg (tree names self operand)
  | .unary .pos operand => .unary .pos (tree names self operand)
  | .unary .invert operand => .unary .invert (tree names self operand)
  | .unary .not operand => .unary .not (tree names self operand)
  | .boolean .and left right => .binary .and (tree names self left) (tree names self right)
  | .boolean .or left right => .binary .or (tree names self left) (tree names self right)
  | .compare left ((op, right) :: rest) =>
    chainTree names self (linkTree (tree names self left) (tree names self right) (isNone right) op)
      (tree names self right) rest
  | .ifExp test body orelse =>
    .conditional (tree names self test) (tree names self body) (tree names self orelse)
  | .named target value => .assign (spelling self target) (tree names self value)
  | .attribute value attr => .member (tree names self value) (escapeIdentifier attr)
  | .subscript value index => .index (tree names self value) (trees names self index)
  | .call func args => .call (tree names self func) (argumentTrees names self args)
  | _ => .missing

/-- The links of a chain behind those in `before`, whose last operand is `left`, joined to them from
the left. -/
def chainTree (names : LibraryNames) (self : Option String) (before left : CSharp.Expr) :
    List (Python.CmpOp × Python.Expr) → CSharp.Expr
  | [] => before
  | (op, right) :: rest =>
    chainTree names self
      (.binary .and before (linkTree left (tree names self right) (isNone right) op))
      (tree names self right) rest

/-- The trees of several operator expressions. -/
def trees (names : LibraryNames) (self : Option String) : List Python.Expr → List CSharp.Expr
  | [] => []
  | e :: rest => tree names self e :: trees names self rest

/-- The trees of arguments by position. -/
def argumentTrees (names : LibraryNames) (self : Option String) :
    List Python.Arg → List CSharp.Argument
  | .positional e :: rest => .positional (tree names self e) :: argumentTrees names self rest
  | _ => []

end

/-! ## Lowering makes these trees -/

/-- Where `self` stands for the instance, the step gives `result` and leaves it so. -/
def Yields {α : Type} (self : Option String) (step : Render α) (result : α) : Prop :=
  ∀ s : State, s.scopes.receiver = self →
    (step s).1 = result ∧ (step s).2.scopes.receiver = self

namespace Yields

variable {α β : Type} {self : Option String}

theorem pure (a : α) : Yields self (Pure.pure a : Render α) a :=
  fun _ h => ⟨rfl, h⟩

theorem bind {x : Render α} {f : α → Render β} {a : α} {b : β} (hx : Yields self x a)
    (hf : Yields self (f a) b) : Yields self (x >>= f) b := by
  intro s h
  obtain ⟨ha, hs⟩ := hx s h
  obtain ⟨hb, hs'⟩ := hf (x s).2 hs
  rw [← ha] at hb hs'
  exact ⟨hb, hs'⟩

theorem map {x : Render α} {a : α} (hx : Yields self x a) (f : α → β) :
    Yields self (do return f (← x)) (f a) :=
  bind hx (pure _)

theorem lowerName (id : String) : Yields self (lowerName id) (.name (spelling self id)) := by
  intro s h
  have hrun : Lowering.lowerName id s =
      (if s.scopes.receiver = some id then .name "this" else .name (escapeIdentifier id), s) := by
    show (if s.scopes.receiver = some id then (Pure.pure _ : Render CSharp.Expr) else Pure.pure _)
      s = _
    split <;> rfl
  rw [hrun]
  refine ⟨?_, h⟩
  rw [h, spelling]
  split <;> rfl

theorem record (id : String) : Yields self (modifyFrame (·.record id)) () := by
  intro s h
  have hg := (keepsPlace_modifyFrame (fun frame => frame.grows_record id) s).1.scopes
  exact ⟨rfl, hg.receiverEq.trans h⟩

theorem infixed {op : CSharp.BinaryOp} {left right : Render CSharp.Expr} {l r : CSharp.Expr}
    (hl : Yields self left l) (hr : Yields self right r) :
    Yields self (infixed op left right) (.binary op l r) :=
  bind hl (map hr _)

theorem sameObject {left right : Render CSharp.Expr} {l r : CSharp.Expr} (hl : Yields self left l)
    (hr : Yields self right r) :
    Yields self (sameObject left right)
      (.call (.name "ReferenceEquals") [.positional l, .positional r]) :=
  bind hl (map hr _)

theorem contained {item container : Render CSharp.Expr} {i c : CSharp.Expr}
    (hi : Yields self item i) (hc : Yields self container c) :
    Yields self (contained item container) (.call (.member c "Contains") [.positional i]) :=
  bind hc (map hi _)

theorem compared {left right : Render CSharp.Expr} {l r : CSharp.Expr} (hl : Yields self left l)
    (hr : Yields self right r) (op : Python.CmpOp) (withNone : Bool) :
    Yields self (compared op withNone left right) (linkTree l r withNone op) := by
  cases op with
  | is =>
    cases withNone with
    | true => exact infixed hl hr
    | false => exact sameObject hl hr
  | isNot =>
    cases withNone with
    | true => exact infixed hl hr
    | false => exact map (sameObject hl hr) _
  | isIn => exact contained hl hr
  | notIn => exact map (contained hl hr) _
  | _ => exact infixed hl hr

end Yields

/-- A text is kept whose end holds none of the characters to be dropped. -/
theorem dropEnd_of_forall {p : Char → Bool} {cs : List Char} (h : ∀ c ∈ cs, p c = false) :
    CSharp.dropEnd p cs = cs := by
  have hdrop : cs.reverse.dropWhile p = cs.reverse := by
    cases hr : cs.reverse with
    | nil => rfl
    | cons c rest =>
      have hc : p c = false := h c (List.mem_reverse.1 (by rw [hr]; exact List.mem_cons_self))
      simp [hc]
  rw [CSharp.dropEnd, hdrop, List.reverse_reverse]

/-- The digits of a decimal integer are kept. -/
theorem intLiteral_of_isDecimal {text : String} (h : isDecimal text.toList = true) :
    CSharp.intLiteral text = text := by
  have hnum := CSharp.isNumberChar_of_isDecimal h
  have hoctal : CSharp.octalDigits? text.toList = none := by
    unfold CSharp.octalDigits?
    split
    · rename_i mark rest htext
      have hm : CSharp.isNumberChar mark = true := hnum mark (by rw [htext]; simp)
      refine if_neg ?_
      rintro (rfl | rfl) <;> exact absurd hm (by decide)
    · rfl
  have hend : ∀ c ∈ text.toList, (c = 'l' || c = 'L') = false := by
    intro c hc
    have hm := hnum c hc
    simp only [Bool.or_eq_false_iff, decide_eq_false_iff_not]
    constructor <;> rintro rfl <;> exact absurd hm (by decide)
  rw [CSharp.intLiteral, hoctal]
  show String.ofList (CSharp.dropEnd _ text.toList) = text
  rw [dropEnd_of_forall hend, String.ofList_toList]

theorem operatorFor_apply (names : LibraryNames) (l r : CSharp.Expr) (op : Python.BinaryOp) :
    (operatorFor names op).apply l r = binaryTree names l r op := by
  cases op <;> rfl

section

variable {names : LibraryNames} {self : Option String}

theorem yields_lowerList {items : List Python.Expr}
    (h : ∀ item ∈ items, Yields self (lowerExpr names item) (tree names self item)) :
    Yields self (lowerList names items) (trees names self items) := by
  induction items with
  | nil => exact .pure _
  | cons item rest ih =>
    have hrest : ∀ other ∈ rest, Yields self (lowerExpr names other) (tree names self other) :=
      fun other ho => h other (List.mem_cons_of_mem item ho)
    exact .bind (h item List.mem_cons_self) (.map (ih hrest) _)

theorem yields_lowerArgs {items : List Python.Expr}
    (h : ∀ item ∈ items, Yields self (lowerExpr names item) (tree names self item)) :
    Yields self (lowerArgs names (items.map .positional))
      (argumentTrees names self (items.map .positional)) := by
  induction items with
  | nil => exact .pure _
  | cons item rest ih =>
    have hrest : ∀ other ∈ rest, Yields self (lowerExpr names other) (tree names self other) :=
      fun other ho => h other (List.mem_cons_of_mem item ho)
    exact .bind (h item List.mem_cons_self) (.map (ih hrest) _)

/-- The conditions of a chain, joined behind those that came before. -/
theorem yields_lowerComparisons {links : List (Python.CmpOp × Python.Expr)}
    (h : ∀ link ∈ links, Yields self (lowerExpr names link.2) (tree names self link.2))
    {left : Render CSharp.Expr} {l : CSharp.Expr} (hl : Yields self left l) :
    ∃ conditions, Yields self (lowerComparisons names left links) conditions ∧
      ∀ before, conditions.foldl (.binary .and) before = chainTree names self before l links := by
  induction links generalizing left l with
  | nil => exact ⟨[], .pure _, fun _ => rfl⟩
  | cons link rest ih =>
    obtain ⟨op, right⟩ := link
    have hr : Yields self (lowerExpr names right) (tree names self right) :=
      h (op, right) List.mem_cons_self
    have hrest : ∀ other ∈ rest, Yields self (lowerExpr names other.2) (tree names self other.2) :=
      fun other ho => h other (List.mem_cons_of_mem _ ho)
    obtain ⟨conditions, hc, hfold⟩ := ih hrest hr
    exact ⟨_ :: conditions, .bind (hl.compared hr op _) (.map hc _), fun before => hfold _⟩

theorem yields_lowerExpr {e : Python.Expr} (he : OperatorExpr e) :
    Yields self (lowerExpr names e) (tree names self e) := by
  induction he with
  | name _ => exact .lowerName _
  | int h =>
    rw [lowerExpr, tree, intLiteral_of_isDecimal h]
    exact .pure _
  | bool value => cases value <;> exact .pure _
  | none => exact .pure _
  | binary op _ _ ihl ihr =>
    rw [tree, ← operatorFor_apply]
    exact .bind ihl (.map ihr _)
  | unary op _ ih => cases op <;> exact .map ih _
  | boolean op _ _ ihl ihr => cases op <;> exact ihl.infixed ihr
  | @compare left links _ hn _ ihl ih =>
    obtain ⟨⟨op, right⟩, rest, rfl⟩ := List.exists_cons_of_ne_nil hn
    have hr := ih (op, right) List.mem_cons_self
    obtain ⟨conditions, hc, hfold⟩ :=
      yields_lowerComparisons (fun link hm => ih link (List.mem_cons_of_mem _ hm)) hr
    rw [tree, ← hfold]
    exact .bind (.bind (ihl.compared hr op _) (.map hc _)) (.pure _)
  | ifExp _ _ _ iht ihb iho => exact .bind iht (.bind ihb (.map iho _))
  | named _ _ ihv => exact .bind (.record _) (.bind (.lowerName _) (.map ihv _))
  | member _ _ ihv => exact .map ihv _
  | subscript _ _ _ ihv ihi => exact .bind ihv (.map (yields_lowerList ihi) _)
  | call _ _ ihf ihi => exact .bind ihf (.map (yields_lowerArgs ihi) _)

end

/-! ## The trees are read back -/

/-- The helpers for the operators that C# lacks are names. -/
structure HelpersNamed (names : LibraryNames) : Prop where
  pow : isName names.powFn = true
  floordiv : isName names.floordivFn = true
  matmul : isName names.matmulFn = true

/-- A name is fit for C#, reserved or not. -/
theorem isName_escapeIdentifier {id : String} (h : isIdentifier id.toList = true) :
    isName (escapeIdentifier id) = true := by
  unfold escapeIdentifier
  split
  · simp [isName, h]
  · rename_i hk
    unfold isName
    split
    · rename_i word htext
      rw [htext] at h
      exact absurd h (by simp [isIdentifier, show CSharp.isWordChar '@' = false by decide])
    · simp [h, hk, -List.contains_eq_mem]

theorem isVariable_spelling {id : String} (h : isIdentifier id.toList = true)
    (self : Option String) : isVariable (spelling self id) = true := by
  unfold spelling
  split
  · decide
  · simp [isVariable, isName_escapeIdentifier h]

theorem isVariable_of_isName {text : String} (h : isName text = true) : isVariable text = true := by
  simp [isVariable, h]

section

variable {l r : CSharp.Expr}

/-- A helper called with two operands. -/
theorem operatorTree_helper (func : String) (hf : isName func = true) (hl : OperatorTree l)
    (hr : OperatorTree r) : OperatorTree (.call (.name func) [.positional l, .positional r]) :=
  .call (.name (isVariable_of_isName hf)) [l, r] (by
    intro item hi
    rcases List.mem_pair.1 hi with rfl | rfl
    · exact hl
    · exact hr)

theorem operatorTree_binaryTree {names : LibraryNames} (hn : HelpersNamed names)
    (hl : OperatorTree l)
    (hr : OperatorTree r) (op : Python.BinaryOp) : OperatorTree (binaryTree names l r op) := by
  cases op with
  | pow => exact operatorTree_helper _ hn.pow hl hr
  | floorDiv => exact operatorTree_helper _ hn.floordiv hl hr
  | matMul => exact operatorTree_helper _ hn.matmul hl hr
  | _ => exact .binary _ hl hr

theorem operatorTree_linkTree (hl : OperatorTree l) (hr : OperatorTree r) (withNone : Bool)
    (op : Python.CmpOp) : OperatorTree (linkTree l r withNone op) := by
  have hsame := operatorTree_helper "ReferenceEquals" (by decide) hl hr
  have hholds : OperatorTree (.call (.member r "Contains") [.positional l]) :=
    .call (.member hr (by decide)) [l] (by simpa using hl)
  cases op with
  | is =>
    cases withNone with
    | true => exact .binary _ hl hr
    | false => exact hsame
  | isNot =>
    cases withNone with
    | true => exact .binary _ hl hr
    | false => exact .unary _ hsame
  | isIn => exact hholds
  | notIn => exact .unary _ hholds
  | _ => exact .binary _ hl hr

end

section

variable {names : LibraryNames} {self : Option String}

theorem operatorTree_chainTree {links : List (Python.CmpOp × Python.Expr)}
    (h : ∀ link ∈ links, OperatorTree (tree names self link.2)) {before l : CSharp.Expr}
    (hb : OperatorTree before) (hl : OperatorTree l) :
    OperatorTree (chainTree names self before l links) := by
  induction links generalizing before l with
  | nil => exact hb
  | cons link rest ih =>
    obtain ⟨op, right⟩ := link
    have hr : OperatorTree (tree names self right) := h (op, right) List.mem_cons_self
    rw [chainTree]
    refine ih ?_ (.binary _ hb (operatorTree_linkTree hl hr _ op)) hr
    intro other ho
    exact h other (List.mem_cons_of_mem _ ho)

theorem trees_eq_map (items : List Python.Expr) :
    trees names self items = items.map (tree names self) := by
  induction items with
  | nil => rfl
  | cons item rest ih => rw [trees, List.map_cons, ih]

theorem argumentTrees_eq_map (items : List Python.Expr) :
    argumentTrees names self (items.map .positional) =
      (items.map (tree names self)).map .positional := by
  induction items with
  | nil => rfl
  | cons item rest ih => rw [List.map_cons, argumentTrees, ih, List.map_cons, List.map_cons]

theorem operatorTree_tree (hn : HelpersNamed names) {e : Python.Expr} (he : OperatorExpr e) :
    OperatorTree (tree names self e) := by
  induction he with
  | name h => exact .name (isVariable_spelling h self)
  | int h => exact .decimal h
  | bool value => cases value <;> exact .literalWord (by decide)
  | none => exact .literalWord (by decide)
  | binary op _ _ ihl ihr => exact operatorTree_binaryTree hn ihl ihr op
  | unary op _ ih => cases op <;> exact .unary _ ih
  | boolean op _ _ ihl ihr => cases op <;> exact .binary _ ihl ihr
  | @compare left links _ hne _ ihl ih =>
    obtain ⟨⟨op, right⟩, rest, rfl⟩ := List.exists_cons_of_ne_nil hne
    have hr := ih (op, right) List.mem_cons_self
    refine operatorTree_chainTree ?_ (operatorTree_linkTree ihl hr _ op) hr
    intro link hm
    exact ih link (List.mem_cons_of_mem _ hm)
  | ifExp _ _ _ iht ihb iho => exact .conditional iht ihb iho
  | named ht _ ihv => exact .assign (isVariable_spelling ht self) ihv
  | member _ ha ihv => exact .member ihv (isName_escapeIdentifier ha)
  | subscript _ hne _ ihv ihi =>
    rw [tree, trees_eq_map]
    refine .index ihv (by simpa using hne) ?_
    intro item hm
    obtain ⟨source, hs, rfl⟩ := List.mem_map.1 hm
    exact ihi source hs
  | call _ _ ihf ihi =>
    rw [tree, argumentTrees_eq_map]
    refine .call ihf _ ?_
    intro item hm
    obtain ⟨source, hs, rfl⟩ := List.mem_map.1 hm
    exact ihi source hs

end

/-- The text of an operator expression, and its text at a place that asks for any level, is read as
the tree that the expression stands for and as no other. -/
theorem operatorExpr_text_parses (names : LibraryNames) (hn : HelpersNamed names) {e : Python.Expr}
    (he : OperatorExpr e) (s : State) :
    (∀ other, Parses .lowest (lowerExpr names e s).1.text other ↔
        other = tree names s.scopes.receiver e) ∧
      ∀ least other, Parses least ((lowerExpr names e s).1.textAt least) other ↔
        other = tree names s.scopes.receiver e := by
  have hy : (lowerExpr names e s).1 = tree names s.scopes.receiver e :=
    (yields_lowerExpr he s rfl).1
  have hr : Reads _ _ (tree names s.scopes.receiver e) := (operatorTree_tree hn he).reads
  rw [hy]
  constructor
  · exact (hr.of_le (Nat.zero_le _)).parses_iff
  · intro least
    exact (hr.placed least).parses_iff

/-- `-(-a) - (b - 1) if a < class is not None else (x := a ** 2)`, in which every kind of place
occurs. -/
def chainedChoice : Python.Expr :=
  .ifExp (.compare (.name "a") [(.lt, .name "class"), (.isNot, .none)])
    (.binary (.unary .neg (.unary .neg (.name "a"))) .sub (.binary (.name "b") .sub (.int "1")))
    (.named "x" (.binary (.name "a") .pow (.int "2")))

theorem chainedChoice_text_parses :
    HelpersNamed {} ∧ OperatorExpr chainedChoice ∧
      ∀ other, Parses .lowest "a < @class && @class != null ? -(-a) - (b - 1) : (x = pow(a, 2))"
        other ↔ other = tree {} none chainedChoice := by
  have hn : HelpersNamed {} := ⟨by decide, by decide, by decide⟩
  have ha : OperatorExpr (.name "a") := .name (by decide)
  have hc : ∀ link ∈ [(Python.CmpOp.lt, Python.Expr.name "class"), (.isNot, .none)],
      OperatorExpr link.2 := by
    intro link hl
    rcases List.mem_pair.1 hl with rfl | rfl
    · exact .name (by decide)
    · exact .none
  have he : OperatorExpr chainedChoice :=
    .ifExp (.compare ha (by simp) hc)
      (.binary .sub (.unary .neg (.unary .neg ha))
        (.binary .sub (.name (by decide)) (.int (by decide))))
      (.named (by decide) (.binary .pow ha (.int (by decide))))
  exact ⟨hn, he, (operatorExpr_text_parses {} hn he {}).1⟩

end PythonToCSharp.Lowering
