import PythonToCSharp.Python.Span
import PythonToCSharp.Text.Bytes

/-!
The concrete tree that a parser makes of a source text.

Every node has a kind, possibly the name of the field it fills in its parent, its text and its
place. Named nodes are those the grammar has a rule for; the others are tokens. Extras, such as
comments, may stand anywhere. A tree can carry a value at each node; `Tree.annotate` computes such
values from the leaves up.

`Tree.ofPreorder?` builds the tree from the list of its nodes in preorder, each with its number of
children.
-/

namespace PythonToCSharp.Concrete

open PythonToCSharp.Python (Span)

/-- What the parser says of one node, apart from its children. -/
structure Info where
  kind : String
  field : Option String
  named : Bool
  extra : Bool
  /-- The node stands for text that fits no rule. -/
  isError : Bool
  /-- The node stands for a token that is not in the text. -/
  isMissing : Bool
  /-- There is an error or a missing token in the node or below it. -/
  hasError : Bool
  /-- The byte offsets at which the node's text starts and stops. -/
  start : Nat
  stop : Nat
  text : String
  span : Span

/-- A concrete tree with a value at each node. -/
inductive Tree (α : Type) where
  | node (info : Info) (value : α) (children : List (Tree α))

/-- A concrete tree as the parser gives it. -/
abbrev Node := Tree Unit

namespace Tree

variable {α β : Type}

def info : Tree α → Info
  | .node info _ _ => info

def value : Tree α → α
  | .node _ value _ => value

def children : Tree α → List (Tree α)
  | .node _ _ children => children

def kind (t : Tree α) : String :=
  t.info.kind

def text (t : Tree α) : String :=
  t.info.text

/-- A place for a tree that is not there. -/
instance [Inhabited α] : Inhabited (Tree α) :=
  ⟨.node ⟨"", none, false, false, false, false, false, 0, 0, "", Span.first⟩ default []⟩

mutual

/-- The tree with the value at each node computed from the node and its children's trees. -/
def annotate (f : Info → List (Tree β) → β) : Tree α → Tree β
  | .node info _ children =>
    let children := annotateAll f children
    .node info (f info children) children

def annotateAll (f : Info → List (Tree β) → β) : List (Tree α) → List (Tree β)
  | [] => []
  | t :: rest => t.annotate f :: annotateAll f rest

end

theorem annotateAll_eq (f : Info → List (Tree β) → β) (ts : List (Tree α)) :
    annotateAll f ts = ts.map (annotate f) := by
  induction ts with
  | nil => rfl
  | cons t rest ih => simp [annotateAll, ih]

@[simp] theorem info_annotate (f : Info → List (Tree β) → β) (t : Tree α) :
    (t.annotate f).info = t.info := by
  cases t; rfl

@[simp] theorem children_annotate (f : Info → List (Tree β) → β) (t : Tree α) :
    (t.annotate f).children = t.children.map (annotate f) := by
  cases t
  simp [annotate, children, annotateAll_eq]

@[simp] theorem value_annotate (f : Info → List (Tree β) → β) (t : Tree α) :
    (t.annotate f).value = f t.info (t.children.map (annotate f)) := by
  cases t
  simp [annotate, value, info, children, annotateAll_eq]

end Tree

/-! ## Finding children -/

section Children

variable {α : Type}

def fields (name : String) (children : List (Tree α)) : List (Tree α) :=
  children.filter fun child => child.info.field == some name

def field? (name : String) (children : List (Tree α)) : Option (Tree α) :=
  children.find? fun child => child.info.field == some name

/-- The named children that are not extras. -/
def parts (children : List (Tree α)) : List (Tree α) :=
  children.filter fun child => child.info.named && !child.info.extra

def part? (children : List (Tree α)) : Option (Tree α) :=
  (parts children).head?

def partsOf (kind : String) (children : List (Tree α)) : List (Tree α) :=
  (parts children).filter fun child => child.kind == kind

def partOf? (kind : String) (children : List (Tree α)) : Option (Tree α) :=
  (parts children).find? fun child => child.kind == kind

/-- Whether one of the children is the token written so. -/
def hasToken (token : String) (children : List (Tree α)) : Bool :=
  children.any fun child => !child.info.named && child.kind == token

end Children

/-! ## Building the tree -/

/-- One node in a list of nodes in preorder. Of its flags `n` says named, `x` extra, `e` error, `m`
missing and `h` that there is an error in it. -/
structure Entry where
  kind : String
  field : Option String
  flags : String
  start : Nat
  stop : Nat
  childCount : Nat

def Entry.info (source : List Char) (entry : Entry) : Info :=
  let flag (c : Char) : Bool := entry.flags.toList.contains c
  { kind := entry.kind
    field := entry.field
    named := flag 'n'
    extra := flag 'x'
    isError := flag 'e'
    isMissing := flag 'm'
    hasError := flag 'h'
    start := entry.start
    stop := entry.stop
    text := String.ofList (Text.slice source entry.start entry.stop)
    span := Span.ofOffset source entry.start }

/-- Puts a node in front of the trees that follow it, of which the first become its children. -/
def Entry.attach (source : List Char) (entry : Entry) (following : List Node) :
    Option (List Node) :=
  if entry.childCount ≤ following.length then
    some (.node (entry.info source) () (following.take entry.childCount) ::
      following.drop entry.childCount)
  else none

/-- The trees whose nodes are listed in preorder. -/
def forestOfPreorder? (source : List Char) : List Entry → Option (List Node)
  | [] => some []
  | entry :: rest => (forestOfPreorder? source rest).bind (entry.attach source)

def Tree.ofPreorder? (source : String) (entries : List Entry) : Option Node :=
  match forestOfPreorder? source.toList entries with
  | some [root] => some root
  | _ => none

end PythonToCSharp.Concrete
