import Mathlib.Data.List.Forall2
import PythonToCSharp.CSharp.Pattern
import PythonToCSharp.Proofs.Grammar.PatternDerivation

/-!
Texts that are phrases of patterns: one lemma for each way in which the text of a pattern is put
together from the texts of its parts. They hold for every lexicon.
-/

namespace PythonToCSharp.CSharp.PatternSyntax

variable {lexicon : Lexicon} {row : Row}

/-! ## Rows and brackets -/

theorem Derives.append {ts us : List String} {trees trees' : List Tree}
    (h : Derives lexicon (.row row) ts trees) (h' : Derives lexicon (.row row) us trees') :
    Derives lexicon (.row row) (ts ++ row.separator :: us) (trees ++ trees') := by
  generalize hphrase : Phrase.row row = phrase at h
  induction h with
  | last h =>
    cases hphrase
    exact .more h h'
  | more h _ _ ih =>
    cases hphrase
    rw [List.append_assoc, List.cons_append, List.cons_append]
    exact .more h (ih rfl)
  | _ => cases hphrase

/-- Texts with a mark between them, each of which is a part of a row, are a row. -/
theorem derives_join {mark : String} (hmark : Divides mark [row.separator]) {texts : List String}
    {trees : List (List Tree)}
    (h : List.Forall₂ (fun text ts => Derives lexicon (.row row) (tokens text) ts) texts trees)
    (hn : texts ≠ []) :
    Derives lexicon (.row row) (tokens (Text.join mark texts)) trees.flatten := by
  induction h with
  | nil => exact absurd rfl hn
  | @cons text ts texts trees hfirst hrest ih =>
    cases hrest with
    | nil => simpa [Text.join] using hfirst
    | cons =>
      have happend := hfirst.append (ih (List.cons_ne_nil _ _))
      rw [join_cons_cons, hmark.tokens_append]
      exact happend

/-- Texts with commas between them, in brackets. -/
theorem derives_enclosed {before after : String} (hbefore : Divides before [row.opening])
    (hafter : Divides after [row.closing]) (hrow : row.separator = ",") {texts : List String}
    {trees : List Tree}
    (h : List.Forall₂ (fun text t => Derives lexicon row.element (tokens text) [t]) texts trees) :
    Derives lexicon (.enclosed row) (tokens (before ++ Text.join ", " texts ++ after)) trees := by
  rw [tokens_append_mark _ hafter.begins, tokens_mark_append hbefore.ends, hbefore.tokens_eq,
    hafter.tokens_eq]
  by_cases hn : texts = []
  · subst hn
    cases h
    exact .empty row
  · have hrows : List.Forall₂ (fun text ts => Derives lexicon (.row row) (tokens text) ts) texts
      (trees.map ([·])) := by
      rw [List.forall₂_map_right_iff]
      exact h.imp fun _ _ hd => .last hd
    have hjoin := derives_join (hrow ▸ divides_comma) hrows hn
    rw [← List.flatMap_def, List.flatMap_singleton'] at hjoin
    exact .enclosed hjoin

/-! ## Primary patterns -/

theorem derives_var {name : String} (h : isPatternName name = true) :
    Derives lexicon .primary (tokens ("var " ++ name)) [.var name] := by
  have hvar : tokens "var " = ["var"] := by decide
  rw [tokens_mark_append (by decide), hvar, tokens_word (isWord_of_isPatternName h)]
  exact .var h

theorem derives_word {text : String} (h : text ∈ literalWords) :
    Derives lexicon .primary (tokens text) [.constant false text] := by
  rw [tokens_word (isWord_of_mem_literalWords h)]
  exact .word h

theorem derives_integer {text : String} (hn : isNumeral text = true)
    (h : lexicon.isInteger text = true) :
    Derives lexicon .primary (tokens text) [.constant false text] := by
  rw [tokens_word (isWord_of_isNumeral hn)]
  exact .integer hn h

theorem derives_negative {text : String} (hn : isNumeral text = true)
    (h : lexicon.isInteger text = true) :
    Derives lexicon .primary (tokens ("-" ++ text)) [.constant true text] := by
  have hminus : tokens "-" = ["-"] := by decide
  rw [tokens_mark_append (by decide), hminus, tokens_word (isWord_of_isNumeral hn)]
  exact .negative hn h

/-- A dotted constant, with a point in it at least. -/
theorem derives_path {segments : List String} (hn : 2 ≤ segments.length)
    (h : ∀ segment ∈ segments, isPatternName segment = true) :
    Derives lexicon .primary (tokens (Text.join "." segments)) [.path segments] := by
  have hnil : segments ≠ [] := by
    rintro rfl
    simp at hn
  have hone : segments ≠ ["_"] := by
    rintro rfl
    simp at hn
  rw [tokens_join_point fun segment hs => isWord_of_isPatternName (h segment hs)]
  exact .path hnil hone h

/-- The rest of a list, with a name for it or without. -/
theorem derives_restText {name : Option String} (h : ∀ id ∈ name, isPatternName id = true) :
    Derives lexicon .item (tokens (restText name)) [.slice (name.map .var)] := by
  cases name with
  | none =>
    have hrest : tokens (restText none) = [".."] := by decide
    rw [hrest]
    exact .rest
  | some id =>
    have hrest : tokens ".. " = [".."] := by decide
    have htext : restText (some id) = ".. " ++ ("var " ++ id) := by
      rw [← String.append_assoc]
      rfl
    rw [htext, tokens_mark_append (by decide), hrest]
    exact .slice (.pattern (.last (.conjunction (.last (derives_var (h id rfl))))))

/-- Patterns between commas in brackets. -/
theorem derives_list {texts : List String} {trees : List Tree}
    (h : List.Forall₂ (fun text t => Derives lexicon .item (tokens text) [t]) texts trees) :
    Derives lexicon .primary (tokens ("[" ++ Text.join ", " texts ++ "]")) [.list trees] := by
  have hopening : Divides "[" ["["] := ⟨by decide, by decide, by decide⟩
  have hclosing : Divides "]" ["]"] := ⟨by decide, by decide, by decide⟩
  exact .list (derives_enclosed hopening hclosing rfl h)

/-- A pattern in parentheses. -/
theorem derives_parens {text : String} {t : Tree} (h : Derives lexicon .pattern (tokens text) [t]) :
    Derives lexicon .primary (tokens ("(" ++ text ++ ")")) [t] := by
  have hopening : tokens "(" = ["("] := by decide
  have hclosing : tokens ")" = [")"] := by decide
  rw [tokens_append_mark _ (by decide), tokens_mark_append (by decide), hopening, hclosing]
  exact .parens h

/-- Parts of a conjunction, with a name for what they match. -/
theorem derives_named {text name : String} {parts : List Tree} (hname : isPatternName name = true)
    (h : Derives lexicon (.row .parts) (tokens text) parts) :
    Derives lexicon (.row .parts) (tokens (text ++ " and var " ++ name))
      (parts ++ [.var name]) := by
  have hand : Divides " and " ["and"] := ⟨by decide, by decide, by decide⟩
  have htext : text ++ " and var " ++ name = text ++ " and " ++ ("var " ++ name) := by
    rw [← String.toList_inj]
    simp
  rw [htext, hand.tokens_append]
  exact h.append (.last (derives_var hname))

/-! ## Types -/

theorem beginsApart_append {mark : String} (h : beginsApart mark = true) (text : String) :
    beginsApart (mark ++ text) = true := by
  obtain ⟨first, hfirst, hlone⟩ := (Option.any_eq_true _ _).1 h
  simp [beginsApart, hfirst, hlone]

theorem derives_positionalSuffix {texts : List String} {trees : List Tree} (hn : texts ≠ [])
    (h : List.Forall₂ (fun text t => Derives lexicon .pattern (tokens text) [t]) texts trees) :
    Derives lexicon (.enclosed .arguments) (tokens (positionalSuffix texts)) trees := by
  have hopening : Divides "(" ["("] := ⟨by decide, by decide, by decide⟩
  have hclosing : Divides ")" [")"] := ⟨by decide, by decide, by decide⟩
  rw [positionalSuffix, if_neg (by simpa using hn)]
  exact derives_enclosed hopening hclosing rfl h

theorem derives_propertySuffix {texts : List String} {trees : List Tree} (hn : texts ≠ [])
    (h : List.Forall₂ (fun text t => Derives lexicon .property (tokens text) [t]) texts trees) :
    Derives lexicon (.enclosed .properties) (tokens (propertySuffix texts)) trees := by
  have hopening : Divides " \x7b " ["\x7b"] := ⟨by decide, by decide, by decide⟩
  have hclosing : Divides " \x7d" ["\x7d"] := ⟨by decide, by decide, by decide⟩
  have htext : propertySuffix texts = " \x7b " ++ Text.join ", " texts ++ " \x7d" := by
    rw [propertySuffix, if_neg (by simpa using hn), braced, ← String.append_assoc,
      ← String.append_assoc]
    rfl
  rw [htext]
  exact derives_enclosed hopening hclosing rfl h

theorem beginsApart_positionalSuffix {texts : List String} (hn : texts ≠ []) :
    beginsApart (positionalSuffix texts) = true := by
  rw [positionalSuffix, if_neg (by simpa using hn), String.append_assoc]
  exact beginsApart_append (by decide) _

theorem beginsApart_propertySuffix {texts : List String} (hn : texts ≠ []) :
    beginsApart (propertySuffix texts) = true := by
  rw [propertySuffix, if_neg (by simpa using hn)]
  exact beginsApart_append (by decide) _

/-- A type with the patterns of its parts, of which there are some. -/
theorem derives_type {name : String} {words items properties : List String}
    {arguments values : List Tree}
    (hname : tokens name = words.intersperse ".") (hwords : words ≠ [])
    (hw : ∀ word ∈ words, isWord word = true)
    (ht : lexicon.isType words = true) (hn : items ≠ [] ∨ properties ≠ [])
    (ha : List.Forall₂ (fun text t => Derives lexicon .pattern (tokens text) [t]) items arguments)
    (hp : List.Forall₂ (fun text t => Derives lexicon .property (tokens text) [t])
      properties values) :
    Derives lexicon .primary (tokens (name ++ positionalSuffix items ++ propertySuffix properties))
      [.type words arguments values] := by
  by_cases hitems : items = []
  · have hproperties : properties ≠ [] := hn.resolve_left (not_not_intro hitems)
    subst hitems
    cases ha
    rw [tokens_append_mark _ (beginsApart_propertySuffix hproperties)]
    have hnone : tokens (name ++ positionalSuffix []) = words.intersperse "." := by
      rw [← hname]
      simp [positionalSuffix]
    rw [hnone]
    exact .properties hwords hw ht (derives_propertySuffix hproperties hp)
  · have hpositional := derives_positionalSuffix hitems ha
    by_cases hproperties : properties = []
    · subst hproperties
      cases hp
      have hnone :
          name ++ positionalSuffix items ++ propertySuffix [] = name ++ positionalSuffix items := by
        simp [propertySuffix]
      rw [hnone, tokens_append_mark _ (beginsApart_positionalSuffix hitems), hname]
      exact .positional hwords hw ht hpositional
    · rw [tokens_append_mark _ (beginsApart_propertySuffix hproperties),
        tokens_append_mark _ (beginsApart_positionalSuffix hitems), hname, List.append_assoc]
      exact .both hwords hw ht hpositional (derives_propertySuffix hproperties hp)

end PythonToCSharp.CSharp.PatternSyntax
