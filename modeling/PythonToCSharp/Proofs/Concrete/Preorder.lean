import Mathlib.Data.List.DropRight
import PythonToCSharp.Concrete.Tree

/-!
The nodes of a concrete tree in preorder, each with the nodes above it.

A tree that is built from a list of entries has exactly the nodes that are listed, in that order.
The place of a node counts the line breaks in front of it and the bytes in front of it on its line,
both from one.
-/

namespace PythonToCSharp.Concrete

namespace Tree

variable {α β : Type}

/-- What holds of a tree if it holds of its children holds of every tree. -/
theorem induct {motive : Tree α → Prop}
    (step : ∀ t, (∀ child ∈ t.children, motive child) → motive t) (t : Tree α) : motive t := by
  have hnode (info : Info) (value : α) (children : List (Tree α)) (h : ∀ t ∈ children, motive t) :
      motive (.node info value children) := step (.node info value children) h
  refine @Tree.rec α motive (fun ts => ∀ t ∈ ts, motive t) hnode ?_ ?_ t
  · simp
  · intro first rest hfirst hrest t hmem
    rcases List.mem_cons.1 hmem with rfl | hmem
    · exact hfirst
    · exact hrest t hmem

mutual

/-- The nodes of a tree in preorder. Each comes with the nodes above it, nearest first, those in
`above` included. -/
def occurrences (above : List (Tree α)) : Tree α → List (List (Tree α) × Tree α)
  | .node info value children =>
    (above, .node info value children) :: occurrencesAll
      (.node info value children :: above) children

/-- `occurrences` of each tree of a list. -/
def occurrencesAll (above : List (Tree α)) : List (Tree α) → List (List (Tree α) × Tree α)
  | [] => []
  | t :: rest => t.occurrences above ++ occurrencesAll above rest

end

/-- The nodes of a tree in preorder. -/
def preorder (t : Tree α) : List (Tree α) :=
  (t.occurrences []).map Prod.snd

/-- The nodes below the root, in preorder. -/
def descendants (t : Tree α) : List (Tree α) :=
  t.children.flatMap preorder

theorem occurrencesAll_eq (above ts : List (Tree α)) :
    occurrencesAll above ts = ts.flatMap (occurrences above) := by
  induction ts with
  | nil => rfl
  | cons t rest ih => rw [occurrencesAll, ih, List.flatMap_cons]

theorem occurrences_eq (above : List (Tree α)) (t : Tree α) :
    t.occurrences above = (above, t) :: t.children.flatMap (occurrences (t :: above)) := by
  cases t with
  | node info value children => rw [occurrences, occurrencesAll_eq, Tree.children]

/-- What is above the root stays above every node. -/
theorem suffix_of_mem_occurrences {t : Tree α} {above : List (Tree α)} {o : List (Tree α) × Tree α}
    (h : o ∈ t.occurrences above) : above <:+ o.1 := by
  induction t using induct generalizing above with
  | step t ih =>
    rw [occurrences_eq, List.mem_cons, List.mem_flatMap] at h
    rcases h with rfl | ⟨t, hmem, ho⟩
    · exact List.suffix_rfl
    · exact (List.suffix_cons _ _).trans (ih t hmem ho)

theorem map_snd_occurrences (above : List (Tree α)) (t : Tree α) :
    (t.occurrences above).map Prod.snd = t.preorder := by
  suffices h : ∀ above other, (t.occurrences above).map Prod.snd =
    (t.occurrences other).map Prod.snd from h above []
  induction t using induct with
  | step t ih =>
    intro above other
    rw [occurrences_eq, occurrences_eq, List.map_cons, List.map_cons, List.map_flatMap,
      List.map_flatMap]
    exact congrArg _ (List.flatMap_congr fun t hmem => ih t hmem _ _)

theorem preorder_eq (t : Tree α) : t.preorder = t :: t.descendants := by
  rw [preorder, occurrences_eq, List.map_cons, List.map_flatMap, descendants]
  exact congrArg _ (List.flatMap_congr fun t _ => map_snd_occurrences _ t)

theorem mem_preorder_self (t : Tree α) : t ∈ t.preorder := by
  simp [preorder_eq]

/-- The nodes below a node of a tree are nodes of the tree. -/
theorem mem_preorder_trans {t node inner : Tree α} (hinner : inner ∈ node.preorder)
    (hnode : node ∈ t.preorder) : inner ∈ t.preorder := by
  induction t using induct with
  | step t ih =>
    rw [preorder_eq] at hnode
    rcases List.mem_cons.1 hnode with rfl | hbelow
    · exact hinner
    · obtain ⟨child, hchild, hnode⟩ := List.mem_flatMap.1 hbelow
      rw [preorder_eq]
      exact List.mem_cons_of_mem _ (List.mem_flatMap.2 ⟨child, hchild, ih child hchild hnode⟩)

/-- Values at the nodes change neither the nodes nor their order. -/
theorem preorder_annotate (f : Info → List (Tree β) → β) (t : Tree α) :
    (t.annotate f).preorder = t.preorder.map (annotate f) := by
  induction t using induct with
  | step t ih =>
    rw [preorder_eq, preorder_eq, List.map_cons, descendants, descendants, children_annotate,
      List.flatMap_map, List.map_flatMap]
    exact congrArg _ (List.flatMap_congr ih)

theorem descendants_annotate (f : Info → List (Tree β) → β) (t : Tree α) :
    (t.annotate f).descendants = t.descendants.map (annotate f) := by
  have h := preorder_annotate f t
  rw [preorder_eq, preorder_eq, List.map_cons] at h
  exact (List.cons.inj h).2

end Tree

/-! ## Listed nodes -/

/-- The trees of a list of entries have the nodes that are listed, in that order. -/
theorem preorder_forestOfPreorder? {source : List Char} {entries : List Entry} {forest : List Node}
    (h : forestOfPreorder? source entries = some forest) :
    (forest.flatMap Tree.preorder).map Tree.info = entries.map (Entry.info source) := by
  induction entries generalizing forest with
  | nil =>
    obtain rfl : [] = forest := by simpa [forestOfPreorder?] using h
    rfl
  | cons entry rest ih =>
    obtain ⟨following, hrest, hattach⟩ := Option.bind_eq_some_iff.1 h
    unfold Entry.attach at hattach
    split at hattach
    · -- the new node goes in front; the trees behind it only move below it
      obtain rfl := Option.some.inj hattach
      rw [List.flatMap_cons, Tree.preorder_eq, Tree.descendants, List.cons_append]
      simp only [Tree.children, List.map_cons, Tree.info]
      rw [← List.flatMap_append, List.take_append_drop, ih hrest]
    · cases hattach

theorem preorder_ofPreorder? {source : String} {entries : List Entry} {root : Node}
    (h : Tree.ofPreorder? source entries = some root) :
    root.preorder.map Tree.info = entries.map (Entry.info source.toList) := by
  unfold Tree.ofPreorder? at h
  split at h
  · rename_i root' hforest
    obtain rfl := Option.some.inj h
    simpa using preorder_forestOfPreorder? hforest
  · cases h

end PythonToCSharp.Concrete

/-! ## Places -/

namespace PythonToCSharp.Python.Span

/-- The place behind a piece of text is found by going over its characters. -/
theorem advance_append (span : Span) (front rest : List Char) :
    span.advance (Text.byteLength front) (front ++ rest) = front.foldl Span.after span := by
  induction front generalizing span with
  | nil => cases rest <;> rfl
  | cons c front ih =>
    have hsize : c.utf8Size + Text.byteLength front ≠ 0 := by
      have := c.utf8Size_pos
      omega
    rw [List.cons_append, Text.byteLength, advance, if_neg hsize, Nat.add_sub_cancel_left, ih,
      List.foldl_cons]

/-- Going over a text counts its lines, and the bytes on the last one. -/
theorem foldl_after (front : List Char) : front.foldl Span.after Span.first =
    ⟨front.count '\n' + 1, Text.byteLength (front.rtakeWhile (· != '\n')) + 1⟩ := by
  induction front using List.reverseRecOn with
  | nil => rfl
  | append_singleton front c ih =>
    rw [List.foldl_append, List.foldl_cons, List.foldl_nil, ih, after, List.rtakeWhile_concat,
      List.count_append]
    by_cases hc : c = '\n'
    · subst hc
      simp [Text.byteLength]
    · simp [hc, Text.byteLength, Text.byteLength_append]
      omega

/-- The place of an offset: the lines in front of it and the bytes in front of it on its line,
counted from one. -/
theorem ofOffset_append (front rest : List Char) :
    ofOffset (front ++ rest) (Text.byteLength front) =
    ⟨front.count '\n' + 1, Text.byteLength (front.rtakeWhile (· != '\n')) + 1⟩ := by
  rw [ofOffset, advance_append, foldl_after]

end PythonToCSharp.Python.Span
