import PythonToCSharp.Proofs.Reading.Nodes

/-!
Comparison chains are read alike in every style of their tokens. The words of an operator may share
one token, with blanks between them, or be a token each, and extras may stand anywhere.

One operator with the operand behind it lengthens both lists of the chain by one, whatever has been
read before. So the two lists never drift apart, and none of the operands is lost where they are put
together.
-/

namespace PythonToCSharp

/-! ## Words -/

namespace Text

/-- Characters without a blank are part of the word that is being read. -/
theorem wordsFrom_append {front : List Char} (h : ∀ c ∈ front, isBlank c = false)
    (word rest : List Char) : wordsFrom word (front ++ rest) = wordsFrom (word ++ front) rest := by
  induction front generalizing word with
  | nil => simp
  | cons c front ih =>
    have hc : isBlank c = false := h c List.mem_cons_self
    have hfront : ∀ d ∈ front, isBlank d = false := fun d hd => h d (List.mem_cons_of_mem c hd)
    rw [List.cons_append, wordsFrom, if_neg (by simp [hc]), ih hfront, List.append_assoc,
      List.singleton_append]

/-- Blanks in front of a text have no part in its words. -/
theorem words_blanks {gap : List Char} (h : ∀ c ∈ gap, isBlank c = true) (rest : List Char) :
    words (gap ++ rest) = words rest := by
  induction gap with
  | nil => rfl
  | cons c gap ih =>
    have hc : isBlank c = true := h c List.mem_cons_self
    have hgap : ∀ d ∈ gap, isBlank d = true := fun d hd => h d (List.mem_cons_of_mem c hd)
    rw [List.cons_append, words, wordsFrom, if_pos hc, if_pos List.isEmpty_nil]
    exact ih hgap

/-- Blanks end a word. -/
theorem words_cons {word gap : List Char} (hn : word ≠ []) (hw : ∀ c ∈ word, isBlank c = false)
    (hg : gap ≠ []) (hgap : ∀ c ∈ gap, isBlank c = true) (rest : List Char) :
    words (word ++ (gap ++ rest)) = word :: words rest := by
  obtain ⟨c, gap, rfl⟩ := List.exists_cons_of_ne_nil hg
  have hc : isBlank c = true := hgap c List.mem_cons_self
  have hmore : ∀ d ∈ gap, isBlank d = true := fun d hd => hgap d (List.mem_cons_of_mem c hd)
  rw [words, wordsFrom_append hw, List.nil_append, List.cons_append, wordsFrom, if_pos hc,
    if_neg (by simpa using hn)]
  exact congrArg (word :: ·) (words_blanks hmore rest)

theorem words_singleton {word : List Char} (hn : word ≠ []) (hw : ∀ c ∈ word, isBlank c = false) :
    words word = [word] := by
  have h := wordsFrom_append hw [] []
  rw [List.append_nil, List.nil_append] at h
  rw [words, h, wordsFrom, if_neg (by simpa using hn)]

/-- Words with blanks between each two. -/
inductive Spaced : List String → List Char → Prop where
  | last (word : String) : Spaced [word] word.toList
  | more (word : String) {gap rest : List Char} {further : List String} (hg : gap ≠ [])
      (hgap : ∀ c ∈ gap, isBlank c = true) (hrest : Spaced further rest) :
      Spaced (word :: further) (word.toList ++ (gap ++ rest))

/-- However wide the gaps between words are, one space is left of each. -/
theorem Spaced.unspace {given : List String} {text : String} (h : Spaced given text.toList)
    (hw : ∀ word ∈ given, word.toList ≠ [] ∧ ∀ c ∈ word.toList, isBlank c = false) :
    unspace text = String.intercalate " " given := by
  have hwords : words text.toList = given.map String.toList := by
    generalize text.toList = cs at h
    induction h with
    | last word =>
      obtain ⟨hn, hc⟩ := hw word List.mem_cons_self
      exact words_singleton hn hc
    | more word hg hgap _ ih =>
      obtain ⟨hn, hc⟩ := hw word List.mem_cons_self
      rw [words_cons hn hc hg hgap, ih fun other ho => hw other (List.mem_cons_of_mem word ho),
        List.map_cons]
  rw [Text.unspace, hwords, List.map_map]
  simp [Function.comp_def]

end Text

/-- The ways to write an operator, word by word; `<>` is the old form of `!=`. -/
def Python.CmpOp.spellings : Python.CmpOp → List (List String)
  | .eq => [["=="]]
  | .notEq => [["!="], ["<>"]]
  | .lt => [["<"]]
  | .le => [["<="]]
  | .gt => [[">"]]
  | .ge => [[">="]]
  | .is => [["is"]]
  | .isNot => [["is", "not"]]
  | .isIn => [["in"]]
  | .notIn => [["not", "in"]]

namespace Reading

open Python Concrete

/-! ## The tokens of a chain -/

/-- Tokens that write an operator: its words in one of them, or each of two words in its own. -/
inductive OperatorTokens (op : CmpOp) : List Node → Prop where
  | joined {words : List String} {token : Node} (hop : words ∈ op.spellings)
      (htoken : token.info.named = false)
      (htext : Text.Spaced words token.text.toList) : OperatorTokens op [token]
  | split {first second : String} {token next : Node} (hop : [first, second] ∈ op.spellings)
      (htoken : IsToken first token) (hnext : IsToken second next) : OperatorTokens op [token, next]

/-- Nodes that are operators, each with the operand behind it. -/
inductive LinkNodes : List (CmpOp × Node) → List Node → Prop where
  | done : LinkNodes [] []
  | link {op : CmpOp} {operand : Node} {tokens rest : List Node} {links : List (CmpOp × Node)}
      (hop : OperatorTokens op tokens) (hoperand : operand.info.named = true)
        (hrest : LinkNodes links rest) :
      LinkNodes ((op, operand) :: links) (tokens ++ operand :: rest)

/-! ## Reading a chain -/

/-- The links of a chain with their operands read. -/
def readLinks (links : List (CmpOp × Node)) : Option (List (CmpOp × Expr)) :=
  links.mapM fun link => (expression? link.2).map fun e => (link.1, e)

@[simp] theorem readLinks_nil : readLinks [] = some [] :=
  rfl

@[simp] theorem readLinks_cons (op : CmpOp) (operand : Node) (links : List (CmpOp × Node)) :
    readLinks ((op, operand) :: links) =
      (expression? operand).bind fun e => (readLinks links).map fun found => (op, e) :: found := by
  rw [readLinks, List.mapM_cons]
  cases expression? operand with
  | none => rfl
  | some e =>
    show (readLinks links).bind (fun found => some ((op, e) :: found)) = (readLinks links).map _
    cases readLinks links <;> rfl

/-- Extras have no part in a chain. -/
theorem readChain_filter (chain : Chain) (nodes : List Node) :
    readChain chain (nodes.map readTree) =
      readChain chain ((nodes.filter fun node => !node.info.extra).map readTree) := by
  induction nodes generalizing chain with
  | nil => rfl
  | cons node rest ih =>
    cases hx : node.info.extra with
    | true => simp [readChain, hx, ih]
    | false =>
      rw [List.filter_cons_of_pos (by simp [hx]), List.map_cons, List.map_cons]
      simp only [readChain, info_readTree, ih]

theorem readChain_token {token : Node} {chain chain' : Chain} (hx : token.info.extra = false)
    (hn : token.info.named = false) (h : chain.pushToken (Text.unspace token.text) = some chain')
    (rest : List ReadTree) : readChain chain (readTree token :: rest) = readChain chain' rest := by
  rw [readChain]
  simp [hx, hn, h]

theorem readChain_operand {operand : Node} (hx : operand.info.extra = false)
    (hn : operand.info.named = true) (chain : Chain) (rest : List ReadTree) :
    readChain chain (readTree operand :: rest) =
      ((expression? operand).elim (.error .unreadable) fun e =>
        readChain { chain with operands := chain.operands ++ [e] } rest) := by
  rw [readChain]
  simp only [info_readTree, hx, hn, expression?]
  cases asExpr (readTree operand) <;> rfl

section Operators

variable {operands : List Expr} {operators : List CmpOp}

/-- The chain at an operand: there is one operand more than there are operators, and no `not` is
left over. -/
def chainAt (operands : List Expr) (operators : List CmpOp) : Chain :=
  ⟨operands, operators, false⟩

theorem spellings_words {op : CmpOp} {words : List String} (h : words ∈ op.spellings) :
    ∀ word ∈ words, word.toList ≠ [] ∧ ∀ c ∈ word.toList, Text.isBlank c = false := by
  have hall : ∀ words ∈ op.spellings, words.all fun word =>
      !word.toList.isEmpty && word.toList.all fun c => !Text.isBlank c := by
    cases op <;> decide
  intro word hword
  simpa using List.all_eq_true.1 (hall words h) word hword

/-- A token with all words of an operator adds that operator. -/
theorem pushToken_joined {op : CmpOp} {words : List String} (h : words ∈ op.spellings) :
    (chainAt operands operators).pushToken (String.intercalate " " words) =
      some (chainAt operands (operators ++ [op])) := by
  have hall : ∀ words ∈ op.spellings, String.intercalate " " words ≠ "not" ∧
      CmpOp.ofSymbol? (String.intercalate " " words) = some op := by
    cases op <;> decide
  obtain ⟨hnot, hop⟩ := hall words h
  simp [Chain.pushToken, chainAt, hnot, hop]

/-- Two tokens with a word each add their operator: behind an `is`, the `not` turns it around, and
elsewhere it waits for the `in`. -/
theorem pushToken_split {op : CmpOp} {first second : String} (h : [first, second] ∈ op.spellings)
    (hl : operands.length = operators.length + 1) :
    ((chainAt operands operators).pushToken first).bind (·.pushToken second) =
      some (chainAt operands (operators ++ [op])) := by
  have hcases : op = .isNot ∧ first = "is" ∧ second = "not" ∨ op = .notIn ∧ first = "not" ∧
      second = "in" := by
    cases op <;> simp_all [CmpOp.spellings]
  rcases hcases with ⟨rfl, rfl, rfl⟩ | ⟨rfl, rfl, rfl⟩
  · have his : CmpOp.ofSymbol? "is" = some .is := rfl
    simp [Chain.pushToken, Chain.endsInIs, chainAt, hl, his]
  · simp [Chain.pushToken, Chain.endsInIs, chainAt, hl]

/-- The tokens of an operator add it to the chain, in either style. -/
theorem readChain_operator {op : CmpOp} {tokens : List Node} (h : OperatorTokens op tokens)
    (hx : ∀ token ∈ tokens, token.info.extra = false) (hl : operands.length = operators.length + 1)
    (rest : List ReadTree) :
    readChain (chainAt operands operators) (tokens.map readTree ++ rest) =
      readChain (chainAt operands (operators ++ [op])) rest := by
  cases h with
  | @joined words token hop htoken htext =>
    refine readChain_token (hx token List.mem_cons_self) htoken ?_ rest
    rw [htext.unspace (spellings_words hop)]
    exact pushToken_joined hop
  | @split first second token next hop htoken hnext =>
    obtain ⟨htoken, rfl⟩ := htoken
    obtain ⟨hnext, rfl⟩ := hnext
    have hword : ∀ word ∈ [token.text, next.text], Text.unspace word = word := by
      intro word hword
      have hone := (Text.Spaced.last word).unspace fun other ho => by
        rw [List.mem_singleton.1 ho]
        exact spellings_words hop word hword
      simpa using hone
    obtain ⟨waiting, hwait, hdone⟩ := Option.bind_eq_some_iff.1 (pushToken_split hop hl)
    rw [← hword _ List.mem_cons_self] at hwait
    rw [← hword _ (List.mem_cons_of_mem _ List.mem_cons_self)] at hdone
    have hxtoken : token.info.extra = false := hx token List.mem_cons_self
    have hxnext : next.info.extra = false := hx next (List.mem_cons_of_mem _ List.mem_cons_self)
    exact (readChain_token hxtoken htoken hwait _).trans (readChain_token hxnext hnext hdone rest)

end Operators

/-- Every link adds its operator and its operand, so the chain stays one operand ahead. -/
theorem readChain_links {links : List (CmpOp × Node)} {nodes : List Node}
    (h : LinkNodes links nodes)
    (hx : ∀ node ∈ nodes, node.info.extra = false) {operands : List Expr} {operators : List CmpOp}
    (hl : operands.length = operators.length + 1) :
    readChain (chainAt operands operators) (nodes.map readTree) =
      (readLinks links).elim (.error .unreadable) fun found =>
        .ok (chainAt (operands ++ found.map Prod.snd) (operators ++ found.map Prod.fst)) := by
  induction h generalizing operands operators with
  | done => simp [readChain]
  | @link op operand tokens rest links hop hoperand _ ih =>
    rw [List.forall_mem_append, List.forall_mem_cons] at hx
    obtain ⟨hxtokens, hxoperand, hxrest⟩ := hx
    rw [List.map_append, List.map_cons, readChain_operator hop hxtokens hl,
      readChain_operand hxoperand hoperand]
    cases he : expression? operand with
    | none => simp [he]
    | some e =>
      have hlonger : (operands ++ [e]).length = (operators ++ [op]).length + 1 := by simp [hl]
      rw [Option.elim_some]
      refine (ih hxrest hlonger).trans ?_
      cases hlinks : readLinks links <;> simp [he, hlinks]

/-- As many links are read as there are. -/
theorem readLinks_ne_nil {links : List (CmpOp × Node)} {found : List (CmpOp × Expr)}
    (h : readLinks links = some found) (hn : links ≠ []) : found ≠ [] := by
  rintro rfl
  obtain ⟨⟨op, operand⟩, rest, rfl⟩ := List.exists_cons_of_ne_nil hn
  simp [Option.bind_eq_some_iff] at h

theorem readComparison_eq {info : Info} {children : List ReadTree} {left : Expr}
    {found : List (CmpOp × Expr)}
    (h : readChain {} children = .ok (chainAt (left :: found.map Prod.snd) (found.map Prod.fst)))
    (hn : found ≠ []) : readComparison info children = some (.compare left found) := by
  have hzip : (found.map Prod.fst).zip (found.map Prod.snd) = found := by
    rw [← List.unzip_fst, ← List.unzip_snd, List.zip_unzip]
  obtain ⟨link, rest, rfl⟩ := List.exists_cons_of_ne_nil hn
  rw [readComparison, h]
  simp only [chainAt, hzip]

/-- A comparison is read as its chain in every style of the tokens: the operands in their order,
each behind the operator that stands in front of it, and it can be read whenever all operands can.
-/
theorem comparison_read_as_chain {info : Info} {children : List Node} {first : Node}
    {links : List (CmpOp × Node)}
    {nodes : List Node} (hkind : info.kind = "comparison_operator")
    (hfirst : first.info.named = true) (hnodes : LinkNodes links nodes) (hlinks : links ≠ [])
    (hchildren : (children.filter fun child => !child.info.extra) = first :: nodes) :
    expression? (.node info () children) =
      (expression? first).bind fun left => (readLinks links).map fun comparisons =>
        .compare left comparisons := by
  have hx : ∀ node ∈ first :: nodes, node.info.extra = false := by
    intro node hnode
    rw [← hchildren] at hnode
    simpa using (List.mem_filter.1 hnode).2
  rw [List.forall_mem_cons] at hx
  have hread : expression? (.node info () children) =
      readComparison info (children.map readTree) := by
    rw [expression?_eq]
    show readExpr info _ = _
    rw [readExpr, hkind]
    rfl
  have hchain : readChain {} (children.map readTree) =
      (expression? first).elim (.error .unreadable) fun left =>
        readChain (chainAt [left] []) (nodes.map readTree) := by
    rw [readChain_filter, hchildren, List.map_cons, readChain_operand hx.1 hfirst]
    rfl
  rw [hread]
  cases hleft : expression? first with
  | none =>
    rw [readComparison, hchain, hleft]
    rfl
  | some left =>
    rw [hleft, Option.elim_some, readChain_links hnodes hx.2 rfl] at hchain
    cases hfound : readLinks links with
    | none =>
      rw [readComparison, hchain, hfound]
      rfl
    | some found =>
      rw [hfound] at hchain
      exact readComparison_eq hchain (readLinks_ne_nil hfound hlinks)

/-- `a is b not in c is not d`, with a comment between two words and a wide gap between two others.
-/
def mixedText : String :=
  "a is b not # c\n in c is  not d"

/-- Its nodes: `not` and `in` are a token each, `is  not` is one token. -/
def mixedNodes : List Node :=
  [leafNode mixedText "identifier" none "n" 0 1, leafNode mixedText "is" none "" 2 4,
    leafNode mixedText "identifier" none "n" 5 6, leafNode mixedText "not" none "" 7 10,
    leafNode mixedText "comment" none "nx" 11 14, leafNode mixedText "in" none "" 16 18,
    leafNode mixedText "identifier" none "n" 19 20, leafNode mixedText "is not" none "" 21 28,
    leafNode mixedText "identifier" none "n" 29 30]

/-- The node above them. -/
def mixedInfo : Info :=
  Entry.info mixedText.toList ⟨"comparison_operator", none, "n", 0, 30, 9⟩

theorem mixedNodes_read : expression? (.node mixedInfo () mixedNodes) =
    some (.compare (.name "a") [(.is, .name "b"), (.notIn, .name "c"), (.isNot, .name "d")]) := by
  have his : OperatorTokens .is [mixedNodes[1]] :=
    .joined (show ["is"] ∈ CmpOp.spellings .is from List.mem_cons_self) rfl (.last "is")
  have hnotIn : OperatorTokens .notIn [mixedNodes[3], mixedNodes[5]] :=
    .split (show ["not", "in"] ∈ CmpOp.spellings .notIn from List.mem_cons_self)
      ⟨rfl, rfl⟩ ⟨rfl, rfl⟩
  have hisNot : OperatorTokens .isNot [mixedNodes[7]] :=
    .joined (show ["is", "not"] ∈ CmpOp.spellings .isNot from List.mem_cons_self) rfl
      (.more "is" (show [' ', ' '] ≠ [] by decide) (List.all_eq_true.1 (by decide)) (.last "not"))
  have hlinks : LinkNodes [(.is, mixedNodes[2]), (.notIn, mixedNodes[6]), (.isNot, mixedNodes[8])]
      [mixedNodes[1], mixedNodes[2], mixedNodes[3], mixedNodes[5], mixedNodes[6], mixedNodes[7],
        mixedNodes[8]] :=
    .link his rfl (.link hnotIn rfl (.link hisNot rfl .done))
  have hchildren : (mixedNodes.filter fun child => !child.info.extra) = mixedNodes[0] ::
      [mixedNodes[1], mixedNodes[2], mixedNodes[3], mixedNodes[5], mixedNodes[6], mixedNodes[7],
        mixedNodes[8]] := rfl
  exact comparison_read_as_chain rfl rfl hlinks (by simp) hchildren

end Reading

end PythonToCSharp
