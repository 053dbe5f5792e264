import PythonToCSharp.Proofs.Reading.Nodes

/-!
Signed numbers and wildcards in patterns. A node for a case wraps such a pattern, and there it is
read with its sign. As an alternative, as a key of a mapping and as the value of a keyword it stands
without a node of its own, as two tokens or as one that is not named.

These places are read from their named children or by their fields. So what is read there is right
exactly if every pattern is a node. Otherwise a sign is lost, a wildcard is dropped, or the keys no
longer stand with their values.
-/

namespace PythonToCSharp.Reading

open Python Concrete

/-! ## Patterns without a node of their own -/

/-- A pattern as it stands where no node wraps it: a node, a number behind a minus sign, or a bare
`_`. -/
inductive Simple where
  | node (pattern : Node)
  | signed (minus : Node) (gap : String) (number : Node)
  | blank (token : Node)

namespace Simple

/-- The nodes that a pattern is made of. -/
def nodes : Simple → List Node
  | .node pattern => [pattern]
  | .signed minus _ number => [minus, number]
  | .blank token => [token]

/-- The text of a pattern. -/
def text : Simple → String
  | .node pattern => pattern.text
  | .signed minus gap number => minus.text ++ gap ++ number.text
  | .blank token => token.text

/-- Whether a pattern is a node. -/
def isNode : Simple → Bool
  | .node _ => true
  | _ => false

/-- The named node of a pattern: a sign has no part in it, and a bare `_` is none. -/
def named? : Simple → Option Node
  | .node pattern => some pattern
  | .signed _ _ number => some number
  | .blank _ => none

/-- The node for a case that wraps a pattern. -/
def wrapper (p : Simple) : Node :=
  let first := p.nodes.headD default
  .node { first.info with kind := "case_pattern", field := none, named := true, text :=
  p.text } () p.nodes

/-- What a pattern is read as when a node for a case wraps it. -/
def reading (p : Simple) : Option Pattern :=
  pattern? p.wrapper

end Simple

/-- A node that is a number. -/
def IsNumber (node : Node) : Prop :=
  node.kind = "integer" ∨ node.kind = "float"

/-- A token whose kind is its text. -/
def IsMark (text : String) (node : Node) : Prop :=
  IsToken text node ∧ node.kind = text

/-- The parts of a pattern are what they stand for, and no number has a sign in its own text. -/
inductive Simple.WellFormed : Simple → Prop where
  | node {pattern : Node} (hnamed : pattern.info.named = true) (hextra : pattern.info.extra = false)
      (hsign : IsNumber pattern → (Text.trimChars pattern.text.toList).head? ≠ some '-') :
        WellFormed (.node pattern)
  | signed {minus number : Node} {gap : String} (hminus : IsMark "-" minus)
      (hnamed : number.info.named = true)
      (hextra : number.info.extra = false) (hnumber : IsNumber number) :
        WellFormed (.signed minus gap number)
  | blank {token : Node} (htoken : IsMark "_" token) : WellFormed (.blank token)

/-! ## Single patterns -/

theorem pattern?_number {node : Node} (h : IsNumber node) :
    pattern? node = some (.literal (readNumber node.info)) ∧
      expression? node = some (readNumber node.info) := by
  have hexpr : expression? node = some (readNumber node.info) := by
    rw [expression?_eq, readExpr]
    rcases h with h | h <;> rw [show node.info.kind = _ from h] <;> rfl
  refine ⟨?_, hexpr⟩
  rw [pattern?_eq, hexpr, readPattern]
  rcases h with h | h <;> rw [show node.info.kind = _ from h] <;> rfl

/-- A mark is no pattern, and is kept as it is written. -/
theorem pattern?_mark {node : Node} {text : String} (h : IsMark text node)
    (ht : text = "-" ∨ text = "_") :
    pattern? node = some (.unsupported text text node.info.span) := by
  obtain ⟨⟨-, htext⟩, hkind⟩ := h
  have hkind' : node.info.kind = text := hkind
  have htext' : node.info.text = text := htext
  rw [pattern?_eq, readPattern, hkind']
  rcases ht with rfl | rfl <;> simp [unsupportedPattern, hkind', htext']

theorem pattern?_case (info : Info) (children : List Node) (h : info.kind = "case_pattern") :
    pattern? (.node info () children) = readCasePattern info (children.map readTree) := by
  rw [pattern?_eq]
  show readPattern info _ _ = _
  rw [readPattern, h]
  rfl

theorem parts_nodes {p : Simple} (h : p.WellFormed) : parts p.nodes = p.named?.toList := by
  cases h with
  | node hnamed hextra => simp [parts, Simple.nodes, Simple.named?, hnamed, hextra]
  | signed hminus hnamed hextra =>
      simp [parts, Simple.nodes, Simple.named?, hminus.1.1, hnamed, hextra]
  | blank htoken => simp [parts, Simple.nodes, Simple.named?, htoken.1.1]

/-- A text that begins with a minus sign still does without the blanks around it. -/
theorem head?_trimChars_minus (rest : List Char) :
    (Text.trimChars ('-' :: rest)).head? = some '-' := by
  have hminus : Text.isBlank '-' = false := by decide
  rw [Text.trimChars, List.dropWhile_cons_of_neg
    (by simp [hminus]), List.reverse_cons, List.dropWhile_append]
  split <;> simp [hminus]

/-- A node is read as itself. -/
theorem reading_node {pattern : Node} (h : (Simple.node pattern).WellFormed) :
    (Simple.node pattern).reading = pattern? pattern := by
  have hparts := parts_nodes h
  cases h with
  | node _ _ hsign =>
    rw [Simple.reading, Simple.wrapper, pattern?_case _ _ rfl, readCasePattern, parts_readTree,
      hparts]
    have hno : ¬((Text.trimChars pattern.text.toList).head? = some '-' ∧ IsNumber pattern) :=
      fun ⟨hminus, hnumber⟩ => hsign hnumber hminus
    simp only [Simple.named?, Simple.text, Option.toList_some, List.map_cons, List.map_nil,
      kind_readTree]
    exact if_neg hno

/-- A number is read with its sign. -/
theorem reading_signed {minus number : Node} {gap : String}
    (h : (Simple.signed minus gap number).WellFormed) :
    (Simple.signed minus gap number).reading =
      some (.literal (.unary .neg (readNumber number.info))) := by
  have hparts := parts_nodes h
  cases h with
  | signed hminus _ _ hnumber =>
    have hexpr : asExpr (readTree number) = some (readNumber number.info) :=
      (pattern?_number hnumber).2
    have htext :
        (minus.text ++ gap ++ number.text).toList = '-' :: (gap.toList ++ number.text.toList) := by
      rw [hminus.1.2]
      simp
    rw [Simple.reading, Simple.wrapper, pattern?_case _ _ rfl, readCasePattern, parts_readTree,
      hparts]
    simp only [Simple.named?, Simple.text, Option.toList_some, List.map_cons, List.map_nil,
      kind_readTree, htext, head?_trimChars_minus]
    rw [if_pos ⟨trivial, hnumber⟩, hexpr]
    rfl

/-- A bare `_` matches everything. -/
theorem reading_blank {token : Node} (h : (Simple.blank token).WellFormed) :
    (Simple.blank token).reading = some .wildcard := by
  have hparts := parts_nodes h
  cases h with
  | blank htoken =>
    have htrim : Text.trimChars "_".toList = ['_'] := by decide
    rw [Simple.reading, Simple.wrapper, pattern?_case _ _ rfl, readCasePattern, parts_readTree,
      hparts]
    simp only [Simple.named?, Simple.text, Option.toList_none, List.map_nil, htoken.1.2, htrim]
    rfl

/-! ## Alternatives -/

/-- Alternatives with a bar between each two. -/
inductive Alternatives : List Simple → List Node → Prop where
  | last {p : Simple} (hp : p.WellFormed) : Alternatives [p] p.nodes
  | more {p : Simple} {bar : Node} {ps : List Simple} {rest : List Node} (hp : p.WellFormed)
      (hbar : IsMark "|" bar)
      (hrest : Alternatives ps rest) : Alternatives (p :: ps) (p.nodes ++ bar :: rest)

theorem Alternatives.wellFormed {ps : List Simple} {nodes : List Node} (h : Alternatives ps nodes) :
    ∀ p ∈ ps, p.WellFormed := by
  induction h with
  | last hp => simpa using hp
  | more hp _ _ ih => exact List.forall_mem_cons.2 ⟨hp, ih⟩

/-- The named children of a choice are the named nodes of its alternatives. -/
theorem Alternatives.parts_eq {ps : List Simple} {nodes : List Node} (h : Alternatives ps nodes) :
    parts nodes = ps.filterMap Simple.named? := by
  induction h with
  | @last p hp =>
    rw [parts_nodes hp]
    cases p <;> rfl
  | @more p bar ps rest hp hbar _ ih =>
    have hcut : parts (p.nodes ++ bar :: rest) = parts p.nodes ++ parts rest := by
      simp [parts, hbar.1.1]
    rw [hcut, parts_nodes hp, ih]
    cases p <;> rfl

/-- Patterns with what they are read as when a node for a case wraps each. -/
def ReadAs (ps : List Simple) (found : List Pattern) : Prop :=
  List.Forall₂ (fun p pattern => p.reading = some pattern) ps found

/-- No number is its own negative. -/
theorem readNumber_ne_neg (info : Info) : readNumber info ≠ .unary .neg (readNumber info) := by
  intro h
  have hsize := congrArg sizeOf h
  simp only [Expr.unary.sizeOf_spec] at hsize
  omega

/-- The named node of a pattern is read as the pattern itself if and only if the pattern is that
node. -/
theorem pattern?_named_iff {p : Simple} {node : Node} (hp : p.WellFormed)
    (hn : p.named? = some node) : pattern? node = p.reading ↔ p.isNode = true := by
  cases p with
  | node pattern =>
    cases hn
    exact iff_of_true (reading_node hp).symm rfl
  | signed minus gap number =>
    cases hn
    rw [reading_signed hp]
    cases hp with
    | signed _ _ _ hnumber =>
      rw [(pattern?_number hnumber).1]
      refine iff_of_false ?_ Bool.false_ne_true
      intro heq
      exact readNumber_ne_neg _ (Pattern.literal.inj (Option.some.inj heq))
  | blank token => cases hn

/-- The named nodes of alternatives are read as the alternatives if and only if all of them are
nodes. -/
theorem mapM_named_iff {ps : List Simple} {found : List Pattern} (hps : ∀ p ∈ ps, p.WellFormed)
    (hread : ReadAs ps found) :
    (ps.filterMap Simple.named?).mapM pattern? = some found ↔ ∀ p ∈ ps, p.isNode = true := by
  constructor
  · intro hmap
    -- as many patterns are read as there are alternatives, so each has a named node
    have hlength : (ps.filterMap Simple.named?).length = ps.length :=
      (mapM_eq_some_iff.1 hmap).length_eq.trans hread.length_eq.symm
    have hnamed := List.filterMap_length_eq_length.1 hlength
    clear hlength
    induction hread with
    | nil => simp
    | @cons p pattern ps found hp _ ih =>
      rw [List.forall_mem_cons] at hps hnamed
      obtain ⟨node, hnode⟩ := Option.isSome_iff_exists.1 hnamed.1
      rw [List.filterMap_cons_some hnode, mapM_eq_some_iff, List.forall₂_cons] at hmap
      refine List.forall_mem_cons.2 ⟨?_, ih hps.2 (mapM_eq_some_iff.2 hmap.2) hnamed.2⟩
      exact (pattern?_named_iff hps.1 hnode).1 (hmap.1.trans hp.symm)
  · intro hnodes
    rw [mapM_eq_some_iff]
    induction hread with
    | nil => exact .nil
    | @cons p pattern ps found hp _ ih =>
      rw [List.forall_mem_cons] at hps hnodes
      cases p with
      | node node =>
        rw [List.filterMap_cons_some (show (Simple.node node).named? = some node from rfl)]
        exact .cons ((reading_node hps.1).symm.trans hp) (ih hps.2 hnodes.2)
      | signed _ _ _ => cases hnodes.1
      | blank _ => cases hnodes.1

theorem pattern?_union {info : Info} {children : List Node} {ps : List Simple}
    (hkind : info.kind = "union_pattern") (h : Alternatives ps children) :
    pattern? (.node info () children) =
      ((ps.filterMap Simple.named?).mapM pattern?).map .either := by
  rw [pattern?_eq]
  show readPattern info _ _ = _
  rw [readPattern, hkind, ← h.parts_eq, ← asPatterns_readTree, ← parts_readTree]
  rfl

/-! ## Keys -/

/-- Whether a node fills a field that the reading of entries looks at. -/
def FillsEntry (node : Node) : Prop :=
  node.info.field = some "key" ∨ node.info.field = some "value"

instance (node : Node) : Decidable (FillsEntry node) :=
  inferInstanceAs (Decidable (node.info.field = some "key" ∨ node.info.field = some "value"))

/-- Keys with their values, and other nodes before, between and behind them. -/
inductive Entries : List (Simple × Node) → List Node → Prop where
  | done : Entries [] []
  | other {node : Node} {pairs : List (Simple × Node)} {rest : List Node} (hnode : ¬FillsEntry node)
      (hrest : Entries pairs rest) : Entries pairs (node :: rest)
  | entry {key : Simple} {colon value : Node} {pairs : List (Simple × Node)} {rest : List Node}
      (hkey : key.WellFormed)
      (hfields : ∀ node ∈ key.nodes, node.info.field = some "key") (hcolon : ¬FillsEntry colon)
      (hvalue : value.info.field = some "value") (hrest : Entries pairs rest) :
      Entries ((key, value) :: pairs) (key.nodes ++ colon :: value :: rest)

/-- The fields of the entries: the nodes of the keys, which may be two for one key, and the values.
-/
theorem Entries.fields_eq {pairs : List (Simple × Node)} {nodes : List Node}
    (h : Entries pairs nodes) :
    fields "key" nodes = pairs.flatMap (fun pair => pair.1.nodes) ∧ fields "value" nodes =
      pairs.map Prod.snd := by
  induction h with
  | done => exact ⟨rfl, rfl⟩
  | other hnode _ ih =>
    simp only [FillsEntry, not_or] at hnode
    simpa [fields, hnode] using ih
  | @entry key colon value pairs rest _ hfields hcolon hvalue _ ih =>
    simp only [FillsEntry, not_or] at hcolon
    have hkeys : fields "key" key.nodes = key.nodes := by
      simpa [fields] using hfields
    have hnone : fields "value" key.nodes = [] := by
      rw [fields, List.filter_eq_nil_iff]
      intro node hnode
      simp [hfields node hnode]
    constructor
    · rw [fields, List.filter_append, ← fields, hkeys, List.flatMap_cons, ← ih.1]
      simp [fields, hcolon, hvalue]
    · rw [fields, List.filter_append, ← fields, hnone, List.map_cons, ← ih.2]
      simp [fields, hcolon, hvalue]

theorem Entries.wellFormed {pairs : List (Simple × Node)} {nodes : List Node}
    (h : Entries pairs nodes) : ∀ pair ∈ pairs, pair.1.WellFormed := by
  induction h with
  | done => simp
  | other _ _ ih => exact ih
  | entry hkey _ _ _ _ ih => exact List.forall_mem_cons.2 ⟨hkey, ih⟩

/-- A key node with a value node as they are read. -/
def readEntry (pair : Node × Node) : Option (Pattern × Pattern) :=
  (pattern? pair.1).bind fun key => (pattern? pair.2).map fun value => (key, value)

/-- Keys with their values as they are read when a node for a case wraps each key. -/
def EntriesReadAs (pairs : List (Simple × Node)) (items : List (Pattern × Pattern)) : Prop :=
  List.Forall₂ (fun pair item => pair.1.reading = some item.1 ∧ pattern? pair.2 = some item.2) pairs
    items

/-- A key that is no node begins with a token that is no pattern. -/
theorem pattern?_first_ne {key : Simple} (hkey : key.WellFormed) (hnode : key.isNode = false) :
    ∃ token more, key.nodes = token :: more ∧ pattern? token ≠ key.reading := by
  cases key with
  | node _ => cases hnode
  | signed minus gap number =>
    refine ⟨minus, [number], rfl, ?_⟩
    rw [reading_signed hkey]
    cases hkey with
    | signed hminus => simp [pattern?_mark hminus (.inl rfl)]
  | blank token =>
    refine ⟨token, [], rfl, ?_⟩
    rw [reading_blank hkey]
    cases hkey with
    | blank htoken => simp [pattern?_mark htoken (.inr rfl)]

/-- The fields of entries, put together in order, are read as the entries if and only if all keys
are nodes. -/
theorem mapM_entries_iff {pairs : List (Simple × Node)} {items : List (Pattern × Pattern)}
    (hpairs : ∀ pair ∈ pairs, pair.1.WellFormed) (hread : EntriesReadAs pairs items) :
    ((pairs.flatMap fun pair => pair.1.nodes).zip (pairs.map Prod.snd)).mapM readEntry =
      some items ↔ ∀ pair ∈ pairs, pair.1.isNode = true := by
  rw [mapM_eq_some_iff]
  induction hread with
  | nil => simp
  | @cons pair item pairs items hpair hitems ih =>
    obtain ⟨key, value⟩ := pair
    obtain ⟨hkeyRead, hvalueRead⟩ := hpair
    rw [List.forall_mem_cons] at hpairs
    rw [List.forall_mem_cons, List.flatMap_cons, List.map_cons]
    cases hnode : key.isNode with
    | true =>
      cases key with
      | node node =>
        have hentry : readEntry (node, value) = some item := by
          rw [reading_node hpairs.1] at hkeyRead
          simp only [readEntry, hkeyRead, hvalueRead, Option.bind_some, Option.map_some]
        rw [← ih hpairs.2]
        simp [Simple.nodes, hentry]
      | signed _ _ _ => cases hnode
      | blank _ => cases hnode
    | false =>
      obtain ⟨token, more, hnodes, hne⟩ := pattern?_first_ne hpairs.1 hnode
      refine iff_of_false ?_ (fun h => Bool.false_ne_true h.1)
      intro hall
      rw [hnodes, List.cons_append, List.zip_cons_cons, List.forall₂_cons] at hall
      obtain ⟨found, hfound, hmore⟩ := Option.bind_eq_some_iff.1 hall.1
      obtain ⟨_, -, rfl⟩ := Option.map_eq_some_iff.1 hmore
      exact hne (hfound.trans hkeyRead.symm)

/-- The name for the entries that are left. -/
def restName (children : List Node) : Option String :=
  ((partOf? "splat_pattern" (children.map readTree)).bind fun splat =>
    part? splat.children).map Tree.text

theorem pattern?_dict {info : Info} {children : List Node} {pairs : List (Simple × Node)}
    (hkind : info.kind = "dict_pattern") (h : Entries pairs children) :
    pattern? (.node info () children) =
      (((pairs.flatMap fun pair => pair.1.nodes).zip (pairs.map Prod.snd)).mapM readEntry).map
        fun items =>
        .mapping items (restName children) := by
  rw [pattern?_eq]
  show readPattern info _ _ = _
  rw [readPattern, hkind, ← h.fields_eq.1, ← h.fields_eq.2]
  show readDictPattern _ = _
  rw [readDictPattern, fields_readTree, fields_readTree, List.zip_map, List.mapM_map]
  have hentry : (fun pair : ReadTree × ReadTree => (do
      return (← asPattern pair.1, ← asPattern pair.2) : Option (Pattern × Pattern))) ∘
        Prod.map readTree readTree =
      readEntry := by
    funext pair
    rw [readEntry, pattern?, pattern?, Function.comp_apply, Prod.map_fst, Prod.map_snd]
    cases asPattern (readTree pair.1) <;> cases asPattern (readTree pair.2) <;> rfl
  rw [hentry]
  show (((fields "key" children).zip (fields "value" children)).mapM readEntry).bind _ = _
  cases ((fields "key" children).zip (fields "value" children)).mapM readEntry <;> rfl

/-! ## Keywords -/

/-- A part of a class pattern: a pattern, or a keyword with its value. -/
inductive Argument where
  | positional (node : Node)
  | keyword (name : Node) (value : Simple)

/-- What a part is read as when a node for a case wraps the value of a keyword. -/
def Argument.reading : Argument → Option ClassPart
  | .positional node => (pattern? node).map .positional
  | .keyword name value => value.reading.map (.keyword name.text)

/-- Whether the value of a keyword is a node. -/
def Argument.isPlain : Argument → Bool
  | .positional _ => true
  | .keyword _ value => value.isNode

/-- A node that is a keyword with a value. -/
structure IsKeyword (name : Node) (value : Simple) (node : Node) : Prop where
  kind : node.kind = "keyword_pattern"
  children : ∃ equals, IsMark "=" equals ∧ node.children = name :: equals :: value.nodes
  name_named : name.info.named = true ∧ name.info.extra = false
  value_wellFormed : value.WellFormed

/-- The node that a part of a class pattern stands in. A keyword may have a node for a case around
it. -/
inductive ArgumentNode : Argument → Node → Prop where
  | positional {node : Node} (hkind : node.kind ≠ "keyword_pattern")
      (hinner : node.kind = "case_pattern" →
        ∀ inner ∈ part? node.children, inner.kind ≠ "keyword_pattern") :
      ArgumentNode (.positional node) node
  | keyword {name node : Node} {value : Simple} (h : IsKeyword name value node) :
      ArgumentNode (.keyword name value) node
  | wrapped {name node wrapper : Node} {value : Simple} (hkind : wrapper.kind = "case_pattern")
      (hpart : part? wrapper.children = some node) (h : IsKeyword name value node) :
      ArgumentNode (.keyword name value) wrapper

/-- What a part is in fact read as: a keyword without a named value is broken. -/
def Argument.found : Argument → Option ClassPart
  | .positional node => (pattern? node).map .positional
  | .keyword name value => value.named?.elim (some .broken) fun node =>
      (pattern? node).map (.keyword name.text)

theorem readClassPart_keyword {name node : Node} {value : Simple} {t : ReadTree}
    (h : IsKeyword name value node)
    (ht : (if t.kind = "case_pattern" then part? t.children else some t) = some (readTree node)) :
    readClassPart t = (Argument.keyword name value).found := by
  obtain ⟨hkind, ⟨equals, hequals, hchildren⟩, hname, hvalue⟩ := h
  have hparts :
      parts (readTree node).children = readTree name :: value.named?.toList.map readTree := by
    rw [children_readTree, parts_readTree, hchildren, ← parts_nodes hvalue, ← List.map_cons]
    simp [parts, hname, hequals.1.1]
  rw [readClassPart, ht]
  simp only [kind_readTree, hkind, ↓reduceIte, hparts, Argument.found]
  cases value.named? with
  | none => rfl
  | some number =>
    show (pattern? number).map (ClassPart.keyword (readTree name).text) = _
    rw [text_readTree]
    rfl

theorem readClassPart_eq {argument : Argument} {node : Node} (h : ArgumentNode argument node) :
    readClassPart (readTree node) = argument.found := by
  cases h with
  | positional hkind hinner =>
    rw [readClassPart, kind_readTree, children_readTree, part?_readTree]
    by_cases hcase : node.kind = "case_pattern"
    · rw [if_pos hcase]
      cases hpart : part? node.children with
      | none => rfl
      | some inner =>
        have hne : (readTree inner).kind ≠ "keyword_pattern" := by
          rw [kind_readTree]
          exact hinner hcase inner hpart
        exact if_neg hne
    · rw [if_neg hcase]
      have hne : (readTree node).kind ≠ "keyword_pattern" := by rwa [kind_readTree]
      exact if_neg hne
  | keyword h =>
    refine readClassPart_keyword h (if_neg ?_)
    rw [kind_readTree, h.kind]
    decide
  | wrapped hkind hpart h =>
    refine readClassPart_keyword h ((if_pos ?_).trans ?_)
    · rw [kind_readTree, hkind]
    · rw [children_readTree, part?_readTree, hpart]
      rfl

/-- The pattern of a part by position. -/
def positional? : ClassPart → Option Pattern
  | .positional pattern => some pattern
  | _ => none

/-- The name and the pattern of a part by keyword. -/
def keyword? : ClassPart → Option (String × Pattern)
  | .keyword name pattern => some (name, pattern)
  | _ => none

/-- Whether a keyword lacks its value. -/
def isBroken (part : ClassPart) : Bool :=
  part matches .broken

/-- Parts of a class pattern with what they are read as when a node for a case wraps the value of
each keyword. -/
def ArgumentsReadAs (arguments : List Argument) (found : List ClassPart) : Prop :=
  List.Forall₂ (fun argument part => argument.reading = some part) arguments found

theorem pattern?_class {info : Info} {children : List Node} {cls : Node}
    (hkind : info.kind = "class_pattern") (hcls : partOf? "dotted_name" children = some cls) :
    pattern? (.node info () children) =
      (readClassParts (((parts children).filter fun node => node.kind != "dotted_name").map
        readTree)).map fun found =>
        if found.any isBroken then unsupportedPattern info
        else .classPattern cls.text (found.filterMap positional?) (found.filterMap keyword?) := by
  have hname : partOf? "dotted_name" (children.map readTree) = some (readTree cls) := by
    rw [partOf?, parts_readTree, List.find?_map]
    rw [partOf?] at hcls
    simp only [Function.comp_def, kind_readTree, hcls, Option.map_some]
  have hrest : (parts (children.map readTree)).filter (fun t => t.kind != "dotted_name") =
      ((parts children).filter fun node => node.kind != "dotted_name").map readTree := by
    rw [parts_readTree, List.filter_map]
    simp only [Function.comp_def, kind_readTree]
  rw [pattern?_eq]
  show readPattern info _ _ = _
  rw [readPattern, hkind]
  show readClassPattern info (children.map readTree) = _
  rw [readClassPattern, hname, hrest]
  cases readClassParts
    (((parts children).filter fun node => node.kind != "dotted_name").map readTree) with
  | none => rfl
  | some found =>
    rw [Option.map_some, ← text_readTree cls]
    show (if found.any isBroken then _ else _) = _
    split <;> rfl

theorem ArgumentNode.wellFormed {name node : Node} {value : Simple}
    (h : ArgumentNode (.keyword name value) node) : value.WellFormed := by
  cases h with
  | keyword h => exact h.value_wellFormed
  | wrapped _ _ h => exact h.value_wellFormed

/-- Where the value of a keyword is a node, it is read as a case would read it. -/
theorem found_of_plain {argument : Argument} {node : Node} {part : ClassPart}
    (h : ArgumentNode argument node)
    (hread : argument.reading = some part) (hplain : argument.isPlain = true) :
    argument.found = some part ∧ isBroken part = false := by
  cases argument with
  | positional node =>
    obtain ⟨pattern, -, rfl⟩ := Option.map_eq_some_iff.1 hread
    exact ⟨hread, rfl⟩
  | keyword name value =>
    obtain ⟨pattern, hvalue, rfl⟩ := Option.map_eq_some_iff.1 hread
    refine ⟨?_, rfl⟩
    cases value with
    | node node =>
      rw [reading_node h.wellFormed] at hvalue
      show (pattern? node).map _ = _
      rw [hvalue]
      rfl
    | signed _ _ _ => cases hplain
    | blank _ => cases hplain

/-- Where the value of a keyword is no node, the part is broken or has another value. -/
theorem found_of_not_plain {argument : Argument} {node : Node} {part : ClassPart}
    (h : ArgumentNode argument node)
    (hread : argument.reading = some part) (hplain : argument.isPlain = false) :
    argument.found = some .broken ∨
      ∃ name value other, argument.found = some (.keyword name other) ∧ part = .keyword name value ∧
        other ≠ value := by
  cases argument with
  | positional _ => cases hplain
  | keyword name value =>
    have hvalue := h.wellFormed
    obtain ⟨pattern, hpattern, rfl⟩ := Option.map_eq_some_iff.1 hread
    cases value with
    | node _ => cases hplain
    | signed minus gap number =>
      right
      have hne : pattern? number ≠ some pattern := by
        rw [← hpattern]
        exact fun heq => Bool.false_ne_true ((pattern?_named_iff hvalue rfl).1 heq)
      cases hvalue with
      | signed _ _ _ hnumber =>
        rw [(pattern?_number hnumber).1] at hne
        refine ⟨name.text, pattern, _, ?_, rfl, fun heq => hne (congrArg some heq)⟩
        show (pattern? number).map _ = _
        rw [(pattern?_number hnumber).1]
        rfl
    | blank _ => exact .inl rfl

/-- A part of which it is known what it is in fact read as; nothing is read behind a broken one. -/
theorem readClassParts_cons {argument : Argument} {node : Node} {part : ClassPart}
    (h : ArgumentNode argument node) (hpart : argument.found = some part) (rest : List ReadTree) :
    readClassParts (readTree node :: rest) =
      if isBroken part then some [.broken] else (readClassParts rest).map (part :: ·) := by
  rw [readClassParts, readClassPart_eq h, hpart]
  cases part <;> rfl

/-- The parts of a class pattern, by position and by keyword, none of them broken. -/
def PartsOf (found : List ClassPart) (positional : List Pattern)
    (keywords : List (String × Pattern)) : Prop :=
  found.any isBroken = false ∧ found.filterMap positional? = positional ∧
    found.filterMap keyword? = keywords

theorem filterMap_cons_inj {α β : Type} {f : α → Option β} {a : α} {xs ys : List α} :
    (a :: xs).filterMap f = (a :: ys).filterMap f ↔ xs.filterMap f = ys.filterMap f := by
  cases h : f a <;> simp [h]

/-- The parts of a class pattern are read as a case would read them if and only if the value of each
keyword is a node. -/
theorem readClassParts_iff {arguments : List Argument} {nodes : List Node}
    {expected : List ClassPart}
    (hnodes : List.Forall₂ ArgumentNode arguments nodes)
    (hread : ArgumentsReadAs arguments expected) :
    (∃ found, readClassParts (nodes.map readTree) = some found ∧
        PartsOf found (expected.filterMap positional?) (expected.filterMap keyword?)) ↔
      ∀ argument ∈ arguments, argument.isPlain = true := by
  induction hnodes generalizing expected with
  | nil =>
    cases hread
    simp [readClassParts, PartsOf]
  | @cons argument node arguments nodes hnode _ ih =>
    cases hread with
    | @cons _ part _ expected hpart hrest =>
      rw [List.forall_mem_cons, List.map_cons, ← ih hrest]
      cases hplain : argument.isPlain with
      | true =>
        obtain ⟨hfound, hwhole⟩ := found_of_plain hnode hpart hplain
        rw [readClassParts_cons hnode hfound, if_neg (by simp [hwhole])]
        simp only [Option.map_eq_some_iff, true_and]
        constructor
        · rintro ⟨found, ⟨rest, hrest, rfl⟩, hbroken, hpositional, hkeywords⟩
          rw [List.any_cons, hwhole, Bool.false_or] at hbroken
          exact ⟨rest, hrest, hbroken, filterMap_cons_inj.1 hpositional,
            filterMap_cons_inj.1 hkeywords⟩
        · rintro ⟨rest, hrest, hbroken, hpositional, hkeywords⟩
          refine ⟨part :: rest, ⟨rest, hrest, rfl⟩, ?_, filterMap_cons_inj.2 hpositional,
            filterMap_cons_inj.2 hkeywords⟩
          rw [List.any_cons, hwhole, Bool.false_or, hbroken]
      | false =>
        refine iff_of_false ?_ (fun h => Bool.false_ne_true h.1)
        rintro ⟨found, hfound, hbroken, -, hkeywords⟩
        rcases found_of_not_plain hnode hpart hplain with hlost | ⟨name, value, other,
          hother, rfl, hne⟩
        · rw [readClassParts_cons hnode hlost] at hfound
          cases hfound
          cases hbroken
        · rw [readClassParts_cons hnode hother] at hfound
          obtain ⟨rest, -, rfl⟩ := Option.map_eq_some_iff.1 hfound
          have hfirst : (name, other) = (name, value) := (List.cons.inj hkeywords).1
          exact hne (Prod.mk.inj hfirst).2

/-! ## Where signs and wildcards are kept -/

/-- Signed numbers and wildcards are kept exactly where a node for a case wraps them. Let the
alternatives of a choice, the keys of a mapping or the values of the keywords of a class pattern
each be a node, a number behind a minus sign or a bare `_`. Then the pattern is made of what a case
would read in their place if and only if all of them are nodes. -/
theorem signed_patterns_kept_iff (info : Info) (children : List Node) :
    (∀ ps found, info.kind = "union_pattern" → Alternatives ps children → ReadAs ps found →
      (pattern? (.node info () children) = some (.either found) ↔ ∀ p ∈ ps, p.isNode = true)) ∧
    (∀ pairs items, info.kind = "dict_pattern" → Entries pairs children → EntriesReadAs pairs
      items → (pattern? (.node info () children) = some (.mapping items (restName children)) ↔
        ∀ pair ∈ pairs, pair.1.isNode = true)) ∧
    ∀ cls arguments expected, info.kind = "class_pattern" →
      partOf? "dotted_name" children = some cls →
      List.Forall₂ ArgumentNode arguments
        ((parts children).filter fun node => node.kind != "dotted_name") →
      ArgumentsReadAs arguments expected →
      (pattern? (.node info () children) =
          some (.classPattern cls.text (expected.filterMap positional?)
            (expected.filterMap keyword?)) ↔
        ∀ argument ∈ arguments, argument.isPlain = true) := by
  refine ⟨?_, ?_, ?_⟩
  · intro ps found hkind hchildren hread
    rw [pattern?_union hkind hchildren, ← mapM_named_iff hchildren.wellFormed hread]
    simp
  · intro pairs items hkind hchildren hread
    rw [pattern?_dict hkind hchildren, ← mapM_entries_iff hchildren.wellFormed hread]
    simp
  · intro cls arguments expected hkind hcls hnodes hread
    rw [pattern?_class hkind hcls, ← readClassParts_iff hnodes hread, Option.map_eq_some_iff]
    refine exists_congr fun found => and_congr_right fun _ => ?_
    rw [PartsOf]
    cases hbroken : found.any isBroken <;> simp [unsupportedPattern]

/-- A mapping pattern with a signed key between two others. -/
def keysText : String :=
  "\x7b1: a, -2: b, 3: c\x7d"

/-- The node of a value: a node for a case around a name. -/
def valueNode (start stop : Nat) : Node :=
  .node (Entry.info keysText.toList ⟨"case_pattern", some "value", "n", start, stop, 1⟩) ()
    [leafNode keysText "dotted_name" none "n" start stop]

/-- The nodes of the mapping pattern. -/
def keysNodes : List Node :=
  [leafNode keysText "\x7b" none "" 0 1, leafNode keysText "integer" (some "key") "n" 1 2,
    leafNode keysText ":" none "" 2 3, valueNode 4 5, leafNode keysText "," none "" 5 6,
    leafNode keysText "-" (some "key") "" 7 8, leafNode keysText "integer" (some "key") "n" 8 9,
    leafNode keysText ":" none "" 9 10, valueNode 11 12, leafNode keysText "," none "" 12 13,
    leafNode keysText "integer" (some "key") "n" 14 15, leafNode keysText ":" none "" 15 16,
      valueNode 17 18,
    leafNode keysText "\x7d" none "" 18 19]

/-- The node above them. -/
def keysInfo : Info :=
  Entry.info keysText.toList ⟨"dict_pattern", none, "n", 0, 19, 14⟩

/-- The keys with their values. -/
def keysPairs : List (Simple × Node) :=
  [(.node keysNodes[1], keysNodes[3]), (.signed keysNodes[5] "" keysNodes[6], keysNodes[8]),
    (.node keysNodes[10], keysNodes[12])]

/-- What a case would read in the place of each key, with the values. -/
def keysItems : List (Pattern × Pattern) :=
  [(.literal (.int "1"), .capture "a"), (.literal (.unary .neg (.int "2")), .capture "b"),
    (.literal (.int "3"), .capture "c")]

/-- The sign stands with the second value and its number with the third one. -/
theorem keysNodes_misread :
    pattern? (.node keysInfo () keysNodes) ≠ some (.mapping keysItems none) := by
  have hone : (Simple.node keysNodes[1]).WellFormed := .node rfl rfl (fun _ => by decide)
  have htwo : (Simple.signed keysNodes[5] "" keysNodes[6]).WellFormed :=
    .signed ⟨⟨rfl, rfl⟩, rfl⟩ rfl rfl (.inl rfl)
  have hthree : (Simple.node keysNodes[10]).WellFormed := .node rfl rfl (fun _ => by decide)
  have hentries : Entries keysPairs keysNodes :=
    .other (by decide) (.entry hone (by decide) (by decide) rfl
      (.other (by decide) (.entry htwo (by decide) (by decide) rfl
        (.other (by decide) (.entry hthree (by decide) (by decide) rfl
          (.other (by decide) .done))))))
  have hitems : EntriesReadAs keysPairs keysItems :=
    .cons ⟨reading_node hone, rfl⟩
      (.cons ⟨reading_signed htwo, rfl⟩ (.cons ⟨reading_node hthree, rfl⟩ .nil))
  intro hread
  have hall := ((signed_patterns_kept_iff keysInfo keysNodes).2.1 _ _ rfl hentries hitems).1 hread
  exact Bool.false_ne_true
    (hall (.signed keysNodes[5] "" keysNodes[6], keysNodes[8]) (by simp [keysPairs]))

/-- A choice between a signed number and a wildcard. -/
def choiceText : String :=
  "match x:\n    case -1 | _:\n        a\n"

/-- The node of the choice. -/
def choiceInfo : Info :=
  Entry.info choiceText.toList ⟨"union_pattern", none, "n", 18, 24, 4⟩

/-- The nodes below it. -/
def choiceNodes : List Node :=
  [leafNode choiceText "-" none "" 18 19, leafNode choiceText "integer" none "n" 19 20,
    leafNode choiceText "|" none "" 21 22, leafNode choiceText "_" none "" 23 24]

/-- The sign is lost, and with the wildcard the second alternative. -/
theorem choiceNodes_lose_sign :
    (∃ ps, Alternatives ps choiceNodes ∧ ReadAs ps [.literal (.unary .neg (.int "1")), .wildcard]) ∧
      pattern? (.node choiceInfo () choiceNodes) = some (.either [.literal (.int "1")]) := by
  have hsigned : (Simple.signed choiceNodes[0] "" choiceNodes[1]).WellFormed :=
    .signed ⟨⟨rfl, rfl⟩, rfl⟩ rfl rfl (.inl rfl)
  have hblank : (Simple.blank choiceNodes[3]).WellFormed := .blank ⟨⟨rfl, rfl⟩, rfl⟩
  have hbar : IsMark "|" choiceNodes[2] := ⟨⟨rfl, rfl⟩, rfl⟩
  refine ⟨⟨_, .more hsigned hbar (.last hblank), ?_⟩, rfl⟩
  exact .cons (reading_signed hsigned) (.cons (reading_blank hblank) .nil)

end PythonToCSharp.Reading
