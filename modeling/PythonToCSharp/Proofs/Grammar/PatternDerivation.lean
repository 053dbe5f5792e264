import Mathlib.Order.Filter.AtTopBot.Basic
import PythonToCSharp.Proofs.Grammar.PatternTokens

/-!
The grammar of C#'s patterns, and that it is unambiguous.

`or` binds most loosely, then `and`, both to the left, and then come the primary patterns: discards,
constants, names that are bound, lists, types with the patterns of their parts, and patterns between
parentheses.

`Derives` is the grammar. What may stand for a type and for an integer is left to a lexicon. `parse`
asks no lexicon and finds every derivation, so tokens derive one tree at most, whatever the lexicon
takes.
-/

namespace PythonToCSharp.CSharp.PatternSyntax

open Filter

/-! ## Trees -/

/-- The tree of a pattern, of an item of a list or of a part of a type. -/
inductive Tree where
  | discard
  /-- `var name` -/
  | var (name : String)
  /-- A number, behind a minus sign or not, or a word such as `null`. -/
  | constant (negative : Bool) (text : String)
  /-- A dotted constant. -/
  | path (segments : List String)
  | list (items : List Tree)
  /-- The rest of a list, and the pattern that it has to match if there is one. -/
  | slice (pattern : Option Tree)
  /-- A type with the patterns of its parts, by position and by name. -/
  | type (name : List String) (arguments properties : List Tree)
  /-- A part of a type by name. -/
  | property (name : String) (pattern : Tree)
  | and (left right : Tree)
  | or (left right : Tree)

instance : Inhabited Tree := ⟨.discard⟩

/-- Trees put together from the left. -/
def joined (combine : Tree → Tree → Tree) : List Tree → Tree
  | [] => default
  | first :: rest => rest.foldl combine first

/-! ## The words of the grammar -/

/-- The words that put patterns together. -/
def operatorWords : List String := ["and", "or", "not"]

/-- Whether a word is a name in a pattern. -/
def isPatternName (word : String) : Bool :=
  isName word && !operatorWords.contains word

/-- Whether a word begins as a number does. -/
def isNumeral (word : String) : Bool :=
  isWord word && word.toList.head?.any Char.isDigit

/-- The reserved words that are types. -/
def builtInTypes : List String :=
  ["bool", "byte", "char", "decimal", "double", "float", "int", "long", "object", "sbyte", "short",
    "string", "uint", "ulong", "ushort"]

/-- Whether words with points between them name a type. Before brackets, `var` and `_` name none. -/
def isTypeName : List String → Bool
  | [word] => builtInTypes.contains word || isPatternName word && word != "var" && word != "_"
  | words => !words.isEmpty && words.all isPatternName

/-- Whether characters are digits with underscores between them. -/
def areDigits (digit : Char → Bool) (cs : List Char) : Bool :=
  cs.all (fun c => digit c || c == '_') && cs.head?.any digit && cs.getLast?.any digit

/-- Whether a character is a hexadecimal digit. -/
def isHexDigit (c : Char) : Bool :=
  c.isDigit || "abcdefABCDEF".toList.contains c

/-- Whether a word is an integer: hexadecimal, binary or decimal. -/
def isInteger (word : String) : Bool :=
  match word.toList with
  | '0' :: mark :: rest =>
    if mark = 'x' ∨ mark = 'X' then areDigits isHexDigit (rest.dropWhile (· == '_'))
    else if mark = 'b' ∨ mark = 'B' then areDigits "01".toList.contains (rest.dropWhile (· == '_'))
    else areDigits Char.isDigit ('0' :: mark :: rest)
  | cs => areDigits Char.isDigit cs

/-- What is taken for a type and for an integer. -/
structure Lexicon where
  isType : List String → Bool
  isInteger : String → Bool

/-- The types and integers of C#. -/
def Lexicon.strict : Lexicon := ⟨isTypeName, PatternSyntax.isInteger⟩

/-- Any words for a type, and any word that begins as a number. -/
def Lexicon.lenient : Lexicon := ⟨fun _ => true, fun _ => true⟩

/-! ## The grammar -/

/-- What stands one by one with a separator in between. -/
inductive Row where
  | parts
  | alternatives
  | items
  | arguments
  | properties

/-- The kinds of phrases that patterns are made of. -/
inductive Phrase where
  | primary
  | conjunction
  | pattern
  | item
  | property
  | row (row : Row)
  /-- A row between its brackets, or the brackets alone. -/
  | enclosed (row : Row)

namespace Row

def separator : Row → String
  | .parts => "and"
  | .alternatives => "or"
  | .items | .arguments | .properties => ","

def element : Row → Phrase
  | .parts => .primary
  | .alternatives => .conjunction
  | .items => .item
  | .arguments => .pattern
  | .properties => .property

def opening : Row → String
  | .items => "["
  | .properties => "\x7b"
  | .parts | .alternatives | .arguments => "("

def closing : Row → String
  | .items => "]"
  | .properties => "\x7d"
  | .parts | .alternatives | .arguments => ")"

end Row

/-- The tokens are a phrase of the kind, with the given trees: one, or one for each element of a
row. -/
inductive Derives (lexicon : Lexicon) : Phrase → List String → List Tree → Prop where
  | discard : Derives lexicon .primary ["_"] [.discard]
  | var {name : String} (h : isPatternName name = true) :
      Derives lexicon .primary ["var", name] [.var name]
  | word {text : String} (h : text ∈ literalWords) :
      Derives lexicon .primary [text] [.constant false text]
  | integer {text : String} (hn : isNumeral text = true) (h : lexicon.isInteger text = true) :
      Derives lexicon .primary [text] [.constant false text]
  | negative {text : String} (hn : isNumeral text = true) (h : lexicon.isInteger text = true) :
      Derives lexicon .primary ["-", text] [.constant true text]
  | path {segments : List String} (hn : segments ≠ []) (hd : segments ≠ ["_"])
      (h : ∀ segment ∈ segments, isPatternName segment = true) :
      Derives lexicon .primary (segments.intersperse ".") [.path segments]
  | parens {ts : List String} {t : Tree} (h : Derives lexicon .pattern ts [t]) :
      Derives lexicon .primary ("(" :: (ts ++ [")"])) [t]
  | list {ts : List String} {items : List Tree} (h : Derives lexicon (.enclosed .items) ts items) :
      Derives lexicon .primary ts [.list items]
  | positional {name ts : List String} {arguments : List Tree} (hn : name ≠ [])
      (hw : ∀ word ∈ name, isWord word = true) (ht : lexicon.isType name = true)
      (h : Derives lexicon (.enclosed .arguments) ts arguments) :
      Derives lexicon .primary (name.intersperse "." ++ ts) [.type name arguments []]
  | properties {name us : List String} {properties : List Tree} (hn : name ≠ [])
      (hw : ∀ word ∈ name, isWord word = true) (ht : lexicon.isType name = true)
      (h : Derives lexicon (.enclosed .properties) us properties) :
      Derives lexicon .primary (name.intersperse "." ++ us) [.type name [] properties]
  | both {name ts us : List String} {arguments properties : List Tree} (hn : name ≠ [])
      (hw : ∀ word ∈ name, isWord word = true) (ht : lexicon.isType name = true)
      (ha : Derives lexicon (.enclosed .arguments) ts arguments)
      (hp : Derives lexicon (.enclosed .properties) us properties) :
      Derives lexicon .primary (name.intersperse "." ++ (ts ++ us))
        [.type name arguments properties]
  | conjunction {ts : List String} {parts : List Tree}
      (h : Derives lexicon (.row .parts) ts parts) :
      Derives lexicon .conjunction ts [joined .and parts]
  | pattern {ts : List String} {alternatives : List Tree}
      (h : Derives lexicon (.row .alternatives) ts alternatives) :
      Derives lexicon .pattern ts [joined .or alternatives]
  | item {ts : List String} {t : Tree} (h : Derives lexicon .pattern ts [t]) :
      Derives lexicon .item ts [t]
  | rest : Derives lexicon .item [".."] [.slice none]
  | slice {ts : List String} {t : Tree} (h : Derives lexicon .pattern ts [t]) :
      Derives lexicon .item (".." :: ts) [.slice (some t)]
  | property {name : String} {ts : List String} {t : Tree} (hn : isPatternName name = true)
      (h : Derives lexicon .pattern ts [t]) :
        Derives lexicon .property (name :: ":" :: ts) [.property name t]
  | last {row : Row} {ts : List String} {t : Tree} (h : Derives lexicon row.element ts [t]) :
      Derives lexicon (.row row) ts [t]
  | more {row : Row} {ts us : List String} {t : Tree} {trees : List Tree}
      (h : Derives lexicon row.element ts [t]) (hs : Derives lexicon (.row row) us trees) :
      Derives lexicon (.row row) (ts ++ row.separator :: us) (t :: trees)
  | empty (row : Row) : Derives lexicon (.enclosed row) [row.opening, row.closing] []
  | enclosed {row : Row} {ts : List String} {trees : List Tree}
      (h : Derives lexicon (.row row) ts trees) :
      Derives lexicon (.enclosed row) (row.opening :: (ts ++ [row.closing])) trees

/-- The text is a pattern of C# with the given tree. -/
def Parses (text : String) (tree : Tree) : Prop :=
  Derives .strict .pattern (tokens text) [tree]

/-! ## Reading tokens -/

/-- The trees of a phrase at the front of the tokens, and what stands behind it. -/
abbrev Reading := Option (List Tree × List String)

/-- What stands behind an expected token. -/
def expect (token : String) : List String → Option (List String)
  | [] => none
  | found :: rest => if found = token then some rest else none

/-- The words of a dotted name that begins with `first`, and what stands behind it. -/
def dottedFrom (first : String) : List String → List String × List String
  | "." :: next :: rest => ((dottedFrom next rest).map (first :: ·) id)
  | rest => ([first], rest)

/-- The tree of a name that no brackets follow. -/
def leaf : List String → Tree
  | [word] =>
    if word = "_" then .discard
    else if literalWords.contains word || isNumeral word then .constant false word
    else .path [word]
  | words => .path words

/-- What a name with the tokens behind it is. -/
def readNamed (read : Phrase → List String → Reading) (name : List String)
    (behind : List String) : Reading :=
  if behind.head? = some "(" then
    (read (.enclosed .arguments) behind).bind fun (arguments, behind) =>
      if behind.head? = some "\x7b" then
        (read (.enclosed .properties) behind).map fun (properties, behind) =>
          ([.type name arguments properties], behind)
      else some ([.type name arguments []], behind)
  else if behind.head? = some "\x7b" then
    (read (.enclosed .properties) behind).map fun (properties, behind) =>
      ([.type name [] properties], behind)
  else some ([leaf name], behind)

/-- The primary pattern at the front of the tokens. -/
def readPrimary (read : Phrase → List String → Reading) : List String → Reading
  | [] => none
  | token :: rest =>
    if token = "(" then
      (read .pattern rest).bind fun (trees, behind) => (expect ")" behind).map (trees, ·)
    else if token = "[" then
      (read (.enclosed .items) (token :: rest)).map fun (items, behind) => ([.list items], behind)
    else if token = "-" then rest.head?.map fun text => ([.constant true text], rest.tail)
    else if token = "var" ∧ rest.head?.any isPatternName = true then
      rest.head?.map fun name => ([.var name], rest.tail)
    else readNamed read (dottedFrom token rest).1 (dottedFrom token rest).2

/-- The marks that close a pattern or divide it from the next. -/
def closers : List String := [")", "]", "\x7d", ","]

/-- The phrase at the front of the tokens, given how smaller ones are read. -/
def readPhrase (read : Phrase → List String → Reading) : Phrase → List String → Reading
  | .primary, tokens => readPrimary read tokens
  | .conjunction, tokens =>
    (read (.row .parts) tokens).map fun (parts, behind) => ([joined .and parts], behind)
  | .pattern, tokens =>
    (read (.row .alternatives) tokens).map fun (alternatives, behind) =>
      ([joined .or alternatives], behind)
  | .item, tokens =>
    match expect ".." tokens with
    | none => read .pattern tokens
    | some rest =>
      if rest.head?.all closers.contains then some ([.slice none], rest)
      else (read .pattern rest).map fun (trees, behind) =>
        (trees.map fun t => .slice (some t), behind)
  | .property, name :: rest =>
    (expect ":" rest).bind fun rest =>
      (read .pattern rest).map fun (trees, behind) => (trees.map (.property name), behind)
  | .property, [] => none
  | .row row, tokens =>
    (read row.element tokens).bind fun (first, behind) =>
      match expect row.separator behind with
      | none => some (first, behind)
      | some rest => (read (.row row) rest).map fun (more, behind) => (first ++ more, behind)
  | .enclosed row, tokens =>
    (expect row.opening tokens).bind fun rest =>
      match expect row.closing rest with
      | some behind => some ([], behind)
      | none =>
        (read (.row row) rest).bind fun (trees, behind) =>
          (expect row.closing behind).map (trees, ·)

/-- The phrase at the front of the tokens, if it is nested no deeper than `depth`. -/
def parse : Nat → Phrase → List String → Reading
  | 0 => fun _ _ => none
  | depth + 1 => readPhrase (parse depth)

/-- The phrase is read from some depth on. -/
def Finds (phrase : Phrase) (tokens : List String) (result : List Tree × List String) : Prop :=
  ∀ᶠ depth in atTop, parse depth phrase tokens = some result

theorem Finds.unique {phrase : Phrase} {tokens : List String}
    {result other : List Tree × List String}
    (h : Finds phrase tokens result) (h' : Finds phrase tokens other) : result = other := by
  obtain ⟨depth, hread, hother⟩ := (h.and h').exists
  exact Option.some.inj (hread.symm.trans hother)

theorem Finds.of_readPhrase {phrase : Phrase} {tokens : List String}
    {result : List Tree × List String}
    (h : ∀ᶠ depth in atTop, readPhrase (parse depth) phrase tokens = some result) :
    Finds phrase tokens result := by
  obtain ⟨least, hl⟩ := eventually_atTop.1 h
  refine eventually_atTop.2 ⟨least + 1, ?_⟩
  intro depth hd
  obtain ⟨smaller, rfl⟩ : ∃ smaller, depth = smaller + 1 := ⟨depth - 1, by omega⟩
  exact hl smaller (by omega)

/-! ## Where a phrase ends -/

/-- The tokens that may stand behind a phrase; behind a closing bracket, any. -/
def Phrase.followers : Phrase → List String
  | .primary => "and" :: "or" :: closers
  | .conjunction | .row .parts => "or" :: closers
  | .pattern | .item | .property | .row .alternatives => closers
  | .row .items | .row .arguments | .row .properties => [")", "]", "\x7d"]
  | .enclosed _ => []

/-- What stands behind a phrase does not go on with it. -/
def Ends : Phrase → List String → Prop
  | .enclosed _, _ => True
  | phrase, rest => ∀ token ∈ rest.head?, token ∈ phrase.followers

@[simp] theorem expect_self (token : String) (rest : List String) :
    expect token (token :: rest) = some rest :=
  if_pos rfl

theorem expect_of_ne {token : String} {rest : List String}
    (h : ∀ found ∈ rest.head?, found ≠ token) : expect token rest = none := by
  cases rest with
  | nil => rfl
  | cons found rest => exact if_neg (h found rfl)

namespace Ends

variable {row : Row} {rest : List String}

theorem nil (phrase : Phrase) : Ends phrase [] := by
  cases phrase with
  | enclosed => trivial
  | _ => exact fun _ h => nomatch h

theorem enclosed (row : Row) (rest : List String) : Ends (.enclosed row) rest :=
  trivial

theorem separator (row : Row) (rest : List String) : Ends row.element (row.separator :: rest) := by
  have h : row.separator ∈ row.element.followers := by cases row <;> decide
  cases row <;> (rintro token ⟨⟩; exact h)

theorem closing (row : Row) (rest : List String) : Ends (.row row) (row.closing :: rest) := by
  have h : row.closing ∈ (Phrase.row row).followers := by cases row <;> decide
  rintro token ⟨⟩
  exact h

theorem parenthesis (rest : List String) : Ends .pattern (")" :: rest) := by
  rintro token ⟨⟩
  decide

theorem element (h : Ends (.row row) rest) : Ends row.element rest := by
  have hsub : ∀ token ∈ (Phrase.row row).followers, token ∈ row.element.followers := by
    cases row <;> decide
  cases row <;> exact fun token ht => hsub token (h token ht)

theorem expect_separator (h : Ends (.row row) rest) : expect row.separator rest = none := by
  have hne : ∀ token ∈ (Phrase.row row).followers, token ≠ row.separator := by cases row <;> decide
  exact expect_of_ne fun token ht => hne token (h token ht)

end Ends

/-! ## Every derivation is found -/

theorem isWord_of_isPatternName {word : String} (h : isPatternName word = true) :
    isWord word = true := by
  simp only [isPatternName, Bool.and_eq_true] at h
  have hname := h.1
  unfold isName at hname
  split at hname
  · rename_i rest htext
    have hall : ∀ c ∈ rest, inWord c = true := fun c hc => by
      simp [inWord, isWordChar_of_isIdentifier hname c hc]
    simpa [isWord, htext, show inWord '@' = true by decide] using hall
  · simp only [Bool.and_eq_true] at hname
    exact isWord_of_isIdentifier hname.1

theorem isWord_of_isNumeral {word : String} (h : isNumeral word = true) : isWord word = true := by
  simp only [isNumeral, Bool.and_eq_true] at h
  exact h.1

/-- A name does not begin as a number does. -/
theorem isNumeral_of_isPatternName {word : String} (h : isPatternName word = true) :
    isNumeral word = false := by
  simp only [isPatternName, Bool.and_eq_true] at h
  have hname := h.1
  unfold isName at hname
  split at hname
  · rename_i rest htext
    simp [isNumeral, htext]
  · simp only [Bool.and_eq_true] at hname
    cases htext : word.toList with
    | nil => simp [isNumeral, htext]
    | cons c rest =>
      have hdigit := hname.1
      simp only [htext, isIdentifier, Bool.and_eq_true, Bool.not_eq_true'] at hdigit
      simp [isNumeral, htext, hdigit.1.2]

theorem not_mem_literalWords {word : String} (h : isPatternName word = true) :
    word ∉ literalWords := by
  intro hmem
  have hall : ∀ text ∈ literalWords, isPatternName text = false := by decide
  rw [hall word hmem] at h
  cases h

/-- A dotted name is none of the words and numbers that stand for themselves. -/
theorem leaf_path {segments : List String} (hd : segments ≠ ["_"])
    (h : ∀ segment ∈ segments, isPatternName segment = true) : leaf segments = .path segments := by
  unfold leaf
  split
  · rename_i word
    have hword : isPatternName word = true := h word List.mem_cons_self
    have hne : word ≠ "_" := fun heq => hd (by rw [heq])
    simp [hne, not_mem_literalWords hword, isNumeral_of_isPatternName hword]
  · rfl

theorem head?_intersperse (words : List String) : (words.intersperse ".").head? = words.head? := by
  rcases words with _ | ⟨first, _ | ⟨second, rest⟩⟩ <;> rfl

/-- The words behind the first one of a dotted name are read up to its end. -/
theorem dottedFrom_append (first : String) (words : List String) {behind : List String}
    (hb : behind.head? ≠ some ".") :
    dottedFrom first (words.flatMap (fun word => [".", word]) ++ behind) =
      (first :: words, behind) := by
  induction words generalizing first with
  | nil =>
    unfold dottedFrom
    split
    · rename_i heq
      exact absurd (congrArg List.head? heq) hb
    · rfl
  | cons word words ih =>
    rw [List.flatMap_cons, List.append_assoc, List.cons_append, List.cons_append, dottedFrom,
      List.nil_append, ih]
    rfl

theorem intersperse_cons (first : String) (words : List String) :
    (first :: words).intersperse "." = first :: words.flatMap fun word => [".", word] := by
  induction words generalizing first with
  | nil => rfl
  | cons word words ih => rw [List.intersperse_cons_cons, ih]; rfl

theorem readPrimary_dotted {read : Phrase → List String → Reading} {name behind : List String}
    (hn : name ≠ []) (hw : ∀ word ∈ name, isWord word = true)
    (hb : ∀ token ∈ behind.head?, token ≠ "." ∧ isPatternName token = false) :
    readPrimary read (name.intersperse "." ++ behind) = readNamed read name behind := by
  obtain ⟨first, words, rfl⟩ := List.exists_cons_of_ne_nil hn
  have hfirst : isWord first = true := hw first List.mem_cons_self
  have hne : ∀ mark ∈ ["(", "[", "-"], first ≠ mark := by
    rintro mark hm rfl
    have hmarks : ∀ mark ∈ ["(", "[", "-"], isWord mark = false := by decide
    rw [hmarks _ hm] at hfirst
    cases hfirst
  have hpoint : behind.head? ≠ some "." := fun h => (hb "." h).1 rfl
  have hvar :
      (words.flatMap (fun word => [".", word]) ++ behind).head?.any isPatternName = false := by
    cases words with
    | nil =>
      cases behind with
      | nil => rfl
      | cons token rest => exact (hb token rfl).2
    | cons word words => exact (by decide : isPatternName "." = false)
  rw [intersperse_cons, List.cons_append, readPrimary, if_neg (hne _ (by simp)),
    if_neg (hne _ (by simp)), if_neg (hne _ (by simp)),
    if_neg (fun h => by rw [hvar] at h; cases h.2), dottedFrom_append first words hpoint]

/-- Whether a phrase may begin with the rest of a list. -/
def Phrase.mayBeRest : Phrase → Bool
  | .item | .row .items => true
  | _ => false

/-- The token begins a phrase: it neither closes nor divides, and only an item is the rest of a
list. -/
def Opens (phrase : Phrase) (token : String) : Prop :=
  token ∉ closers ∧ (phrase.mayBeRest = false → token ≠ "..")

theorem Opens.of_isWord {word : String} (h : isWord word = true) (phrase : Phrase) :
    Opens phrase word := by
  have hall : ∀ mark ∈ ".." :: closers, isWord mark = false := by decide
  have hmark : ∀ mark ∈ ".." :: closers, word ≠ mark := by
    rintro mark hm rfl
    rw [hall _ hm] at h
    cases h
  exact ⟨fun hmem => hmark word (List.mem_cons_of_mem _ hmem) rfl,
    fun _ => hmark ".." List.mem_cons_self⟩

theorem isWord_of_mem_literalWords {word : String} (h : word ∈ literalWords) :
    isWord word = true := by
  have hall : ∀ text ∈ literalWords, isWord text = true := by decide
  exact hall word h

theorem Opens.element {row : Row} {token : String} (h : Opens row.element token) :
    Opens (.row row) token := by
  refine ⟨h.1, ?_⟩
  intro hrow
  exact h.2 (by cases row <;> first | rfl | cases hrow)

theorem not_opens_closing (phrase : Phrase) (row : Row) : ¬Opens phrase row.closing := by
  have hmem : row.closing ∈ closers := by cases row <;> decide
  exact fun h => h.1 hmem

theorem Derives.opens {lexicon : Lexicon} {phrase : Phrase} {ts : List String} {trees : List Tree}
    (h : Derives lexicon phrase ts trees) : ∃ token ∈ ts.head?, Opens phrase token := by
  induction h with
  | discard | var => exact ⟨_, rfl, .of_isWord (by decide) _⟩
  | word h => exact ⟨_, rfl, .of_isWord (isWord_of_mem_literalWords h) _⟩
  | integer hn => exact ⟨_, rfl, .of_isWord (isWord_of_isNumeral hn) _⟩
  | negative | parens => exact ⟨_, rfl, by decide, fun _ => by decide⟩
  | path hn _ h =>
    obtain ⟨first, words, rfl⟩ := List.exists_cons_of_ne_nil hn
    rw [head?_intersperse]
    exact ⟨_, rfl, .of_isWord (isWord_of_isPatternName (h first List.mem_cons_self)) _⟩
  | positional hn hw | properties hn hw | both hn hw =>
    obtain ⟨first, words, rfl⟩ := List.exists_cons_of_ne_nil hn
    rw [intersperse_cons]
    exact ⟨_, rfl, .of_isWord (hw first List.mem_cons_self) _⟩
  | list _ ih | conjunction _ ih | pattern _ ih => exact ih
  | item _ ih =>
    obtain ⟨token, htoken, hne, -⟩ := ih
    exact ⟨token, htoken, hne, fun h => nomatch h⟩
  | rest | slice => exact ⟨_, rfl, by decide, fun h => nomatch h⟩
  | property hn => exact ⟨_, rfl, .of_isWord (isWord_of_isPatternName hn) _⟩
  | last _ ih =>
    obtain ⟨token, htoken, hopens⟩ := ih
    exact ⟨token, htoken, hopens.element⟩
  | more _ _ ih =>
    obtain ⟨token, htoken, hopens⟩ := ih
    refine ⟨token, ?_, hopens.element⟩
    rw [List.head?_append, Option.mem_def.1 htoken]
    rfl
  | @empty row
  | @enclosed row =>
    exact ⟨row.opening, rfl, by cases row <;> decide, fun _ => by cases row <;> decide⟩

theorem Derives.expect_eq_none {lexicon : Lexicon} {phrase : Phrase} {ts : List String}
    {trees : List Tree}
    (h : Derives lexicon phrase ts trees) {token : String} (hne : ¬Opens phrase token)
    (rest : List String) : expect token (ts ++ rest) = none := by
  obtain ⟨first, hfirst, hopens⟩ := h.opens
  refine expect_of_ne ?_
  rintro found hfound rfl
  rw [List.head?_append, Option.mem_def.1 hfirst] at hfound
  cases hfound
  exact hne hopens

theorem exists_opening {lexicon : Lexicon} {row : Row} {ts : List String} {trees : List Tree}
    (h : Derives lexicon (.enclosed row) ts trees) : ∃ more, ts = row.opening :: more := by
  cases h with
  | empty => exact ⟨_, rfl⟩
  | enclosed => exact ⟨_, rfl⟩

/-- Behind a name that ends a pattern neither a point nor a bracket goes on with it. -/
theorem Ends.behind_name {rest : List String} (hr : Ends .primary rest) :
    (∀ token ∈ rest.head?, token ≠ "." ∧ isPatternName token = false) ∧
      rest.head? ≠ some "(" ∧ rest.head? ≠ some "\x7b" := by
  have hall : ∀ token ∈ Phrase.primary.followers,
      (token ≠ "." ∧ isPatternName token = false) ∧ token ≠ "(" ∧ token ≠ "\x7b" := by decide
  exact ⟨fun token ht => (hall token (hr token ht)).1, fun h => (hall _ (hr _ h)).2.1 rfl,
    fun h => (hall _ (hr _ h)).2.2 rfl⟩

theorem readPrimary_enclosed {lexicon : Lexicon} {row : Row} {name ts : List String}
    {trees : List Tree}
    (hn : name ≠ []) (hw : ∀ word ∈ name, isWord word = true)
    (h : Derives lexicon (.enclosed row) ts trees)
    (read : Phrase → List String → Reading) (rest : List String) :
    readPrimary read (name.intersperse "." ++ (ts ++ rest)) = readNamed read name (ts ++ rest) := by
  obtain ⟨more, rfl⟩ := exists_opening h
  refine readPrimary_dotted hn hw ?_
  rintro token ⟨⟩
  cases row <;> decide

theorem Finds.leaf {name rest : List String} (hn : name ≠ [])
    (hw : ∀ word ∈ name, isWord word = true)
    (hr : Ends .primary rest) :
    Finds .primary (name.intersperse "." ++ rest) ([leaf name], rest) := by
  obtain ⟨hname, hparen, hbrace⟩ := hr.behind_name
  refine .of_readPhrase (.of_forall fun depth => ?_)
  rw [readPhrase, readPrimary_dotted hn hw hname, readNamed, if_neg hparen, if_neg hbrace]

theorem Finds.word {text : String} {rest : List String} (hw : isWord text = true)
    (hr : Ends .primary rest) : Finds .primary (text :: rest) ([PatternSyntax.leaf [text]], rest) :=
  .leaf (List.cons_ne_nil text []) (by simpa using hw) hr

theorem leaf_constant {text : String} (h : text ∈ literalWords ∨ isNumeral text = true) :
    leaf [text] = .constant false text := by
  have hne : text ≠ "_" := by
    rintro rfl
    rcases h with h | h <;> exact absurd h (by decide)
  have hor : (literalWords.contains text || isNumeral text) = true := by simpa using h
  rw [leaf, if_neg hne, if_pos hor]

/-- Every derivation is found, whatever the lexicon. -/
theorem Derives.finds {lexicon : Lexicon} {phrase : Phrase} {ts : List String} {trees : List Tree}
    (h : Derives lexicon phrase ts trees) {rest : List String} (hr : Ends phrase rest) :
    Finds phrase (ts ++ rest) (trees, rest) := by
  induction h generalizing rest with
  | discard => exact .word (by decide) hr
  | var h => exact .of_readPhrase (.of_forall fun depth => if_pos ⟨rfl, h⟩)
  | word h =>
    rw [← leaf_constant (.inl h)]
    exact .word (isWord_of_mem_literalWords h) hr
  | integer hn =>
    rw [← leaf_constant (.inr hn)]
    exact .word (isWord_of_isNumeral hn) hr
  | negative => exact .of_readPhrase (.of_forall fun depth => rfl)
  | path hn hd h =>
    rw [← leaf_path hd h]
    exact .leaf hn (fun word hw => isWord_of_isPatternName (h word hw)) hr
  | parens _ ih =>
    refine .of_readPhrase ((ih (.parenthesis rest)).mono fun depth hread => ?_)
    simp [readPhrase, readPrimary, hread]
  | list h ih =>
    refine .of_readPhrase ((ih (.enclosed _ rest)).mono fun depth hread => ?_)
    obtain ⟨more, rfl⟩ := exists_opening h
    exact congrArg (Option.map _) hread
  | positional hn hw _ h ih =>
    obtain ⟨-, -, hbrace⟩ := hr.behind_name
    refine .of_readPhrase ((ih (.enclosed _ rest)).mono fun depth hread => ?_)
    rw [List.append_assoc, readPhrase, readPrimary_enclosed hn hw h, readNamed, hread]
    obtain ⟨more, rfl⟩ := exists_opening h
    simp [hbrace, Row.opening]
  | properties hn hw _ h ih =>
    refine .of_readPhrase ((ih (.enclosed _ rest)).mono fun depth hread => ?_)
    rw [List.append_assoc, readPhrase, readPrimary_enclosed hn hw h, readNamed, hread]
    obtain ⟨more, rfl⟩ := exists_opening h
    simp [Row.opening]
  | @both _ _ us _ _ hn hw _ ha hp iha ihp =>
    refine .of_readPhrase
      (((iha (.enclosed _ (us ++ rest))).and (ihp (.enclosed _ rest))).mono fun depth hread => ?_)
    rw [List.append_assoc, List.append_assoc, readPhrase, readPrimary_enclosed hn hw ha, readNamed,
      hread.1]
    obtain ⟨more, rfl⟩ := exists_opening ha
    obtain ⟨more', rfl⟩ := exists_opening hp
    simpa [Row.opening] using hread.2
  | conjunction _ ih =>
    refine .of_readPhrase ((ih hr).mono fun depth hread => ?_)
    simp [readPhrase, hread]
  | pattern _ ih =>
    refine .of_readPhrase ((ih hr).mono fun depth hread => ?_)
    simp [readPhrase, hread]
  | item h ih =>
    have hrest : ¬Opens .pattern ".." := fun h => h.2 rfl rfl
    refine .of_readPhrase ((ih hr).mono fun depth hread => ?_)
    simp [readPhrase, hread, h.expect_eq_none hrest]
  | rest =>
    have hend : rest.head?.all closers.contains = true := by
      rw [Option.all_eq_true]
      intro token ht
      exact List.contains_iff_mem.2 (hr token ht)
    exact .of_readPhrase (.of_forall fun depth => if_pos hend)
  | @slice ts t h ih =>
    have hmore : ¬(ts ++ rest).head?.all closers.contains = true := by
      obtain ⟨token, htoken, hopens⟩ := h.opens
      rw [List.head?_append, Option.mem_def.1 htoken]
      simpa using hopens.1
    refine .of_readPhrase ((ih hr).mono fun depth hread => ?_)
    rw [List.cons_append, readPhrase, expect_self]
    simp only [hmore]
    simp [hread]
  | property hn _ ih =>
    refine .of_readPhrase ((ih hr).mono fun depth hread => ?_)
    simp [readPhrase, hread]
  | last _ ih =>
    refine .of_readPhrase ((ih hr.element).mono fun depth hread => ?_)
    simp [readPhrase, hread, hr.expect_separator]
  | @more row _ us _ _ _ _ ih ihs =>
    refine .of_readPhrase
      (((ih (.separator row (us ++ rest))).and (ihs hr)).mono fun depth hread => ?_)
    simp [readPhrase, hread.1, hread.2]
  | empty row =>
    refine .of_readPhrase (.of_forall fun depth => ?_)
    simp [readPhrase]
  | enclosed h ih =>
    refine .of_readPhrase ((ih (.closing _ rest)).mono fun depth hread => ?_)
    simp [readPhrase, hread, h.expect_eq_none (not_opens_closing _ _)]

/-- Tokens derive one tree at most, even if the two derivations take different words for types and
integers. -/
theorem Derives.unique {lexicon lexicon' : Lexicon} {phrase : Phrase} {ts : List String}
    {trees trees' : List Tree}
    (h : Derives lexicon phrase ts trees) (h' : Derives lexicon' phrase ts trees') :
    trees = trees' := by
  have heq := (h.finds (.nil phrase)).unique (h'.finds (.nil phrase))
  exact congrArg Prod.fst heq

/-! ## What a derivation takes from the lexicon -/

/-- The trees that stand directly in a tree. -/
def Tree.components : Tree → List Tree
  | .list items => items
  | .slice pattern => pattern.toList
  | .type _ arguments properties => arguments ++ properties
  | .property _ pattern => [pattern]
  | .and left right | .or left right => [left, right]
  | .discard | .var _ | .constant _ _ | .path _ => []

/-- Whether the lexicon has the word that a tree itself is about. -/
def Lexicon.has (lexicon : Lexicon) : Tree → Bool
  | .constant _ text => literalWords.contains text || lexicon.isInteger text
  | .type name _ _ => lexicon.isType name
  | _ => true

/-- The lexicon has all types and integers of a tree. -/
inductive Accepted (lexicon : Lexicon) : Tree → Prop where
  | intro {t : Tree} (here : lexicon.has t = true)
      (parts : ∀ part ∈ t.components, Accepted lexicon part) : Accepted lexicon t

namespace Accepted

variable {lexicon : Lexicon}

theorem leaf {t : Tree} (here : lexicon.has t = true) (hc : t.components = []) :
    Accepted lexicon t :=
  .intro here (by simp [hc])

theorem iff_components {t : Tree} :
    Accepted lexicon t ↔ lexicon.has t = true ∧ ∀ part ∈ t.components, Accepted lexicon part := by
  constructor
  · rintro ⟨here, parts⟩
    exact ⟨here, parts⟩
  · rintro ⟨here, parts⟩
    exact .intro here parts

/-- What trees are put together to is accepted if all of them are. -/
theorem joined_iff {combine : Tree → Tree → Tree} {trees : List Tree} (hn : trees ≠ [])
    (hc : ∀ left right, lexicon.has (combine left right) = true ∧
      (combine left right).components = [left, right]) :
    Accepted lexicon (joined combine trees) ↔ ∀ t ∈ trees, Accepted lexicon t := by
  obtain ⟨first, rest, rfl⟩ := List.exists_cons_of_ne_nil hn
  show Accepted lexicon (rest.foldl combine first) ↔ _
  induction rest generalizing first with
  | nil => simp
  | cons next rest ih =>
    obtain ⟨here, parts⟩ := hc first next
    rw [List.foldl_cons, ih _ (List.cons_ne_nil _ _), List.forall_mem_cons, iff_components, here,
      parts]
    simp [and_assoc]

end Accepted

theorem Derives.ne_nil {lexicon : Lexicon} {row : Row} {ts : List String} {trees : List Tree}
    (h : Derives lexicon (.row row) ts trees) : trees ≠ [] := by
  cases h <;> simp

theorem Derives.accepted {lexicon : Lexicon} {phrase : Phrase} {ts : List String}
    {trees : List Tree}
    (h : Derives lexicon phrase ts trees) : ∀ t ∈ trees, Accepted lexicon t := by
  induction h with
  | discard | var | path | rest => exact List.forall_mem_singleton.2 (.leaf rfl rfl)
  | word h => exact List.forall_mem_singleton.2 (.leaf (by simp [Lexicon.has, h]) rfl)
  | integer _ h
  | negative _ h => exact List.forall_mem_singleton.2 (.leaf (by simp [Lexicon.has, h]) rfl)
  | parens _ ih | item _ ih | last _ ih | enclosed _ ih => exact ih
  | list _ ih => exact List.forall_mem_singleton.2 (.intro rfl ih)
  | positional _ _ ht _ ih =>
      exact List.forall_mem_singleton.2 (.intro ht (by simpa [Tree.components] using ih))
  | properties _ _ ht _ ih => exact List.forall_mem_singleton.2 (.intro ht ih)
  | both _ _ ht _ _ iha ihp =>
    exact List.forall_mem_singleton.2 (.intro ht (List.forall_mem_append.2 ⟨iha, ihp⟩))
  | conjunction h ih =>
    exact List.forall_mem_singleton.2 ((Accepted.joined_iff h.ne_nil fun _ _ => ⟨rfl, rfl⟩).2 ih)
  | pattern h ih =>
    exact List.forall_mem_singleton.2 ((Accepted.joined_iff h.ne_nil fun _ _ => ⟨rfl, rfl⟩).2 ih)
  | slice _ ih | property _ _ ih => exact List.forall_mem_singleton.2 (.intro rfl ih)
  | more _ _ ih ihs => exact List.forall_mem_cons.2 ⟨ih _ List.mem_cons_self, ihs⟩
  | empty => exact fun _ h => nomatch h

end PythonToCSharp.CSharp.PatternSyntax
