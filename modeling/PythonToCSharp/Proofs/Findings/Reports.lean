import PythonToCSharp.Proofs.Findings.Constructs
import PythonToCSharp.Proofs.Lowering.SimpleSteps

/-!
The steps that lower expressions, patterns and the heads of statements report what is listed for
them, in that order and at the place where they stand, from every state.
-/

namespace PythonToCSharp.Lowering

open CSharp (escapeIdentifier)
open Python (Construct Notice placed placed_append)
open Python.Expr (reportedParams comparedInOrder reportedList reportedOption reportedCompared
  reportedParts reportedArgs reportedItems reportedClauses reportedTargets reportedDeletes)
open Python.Pattern (reportedAll reportedEntries reportedKeywords)
open Scope (Frame)

/-! ## Findings about constructs -/

/-- How severe a finding about a construct is, which kind it is filed under and what it says. -/
inductive Says (names : LibraryNames) : Construct → Severity → String → String → Prop where
  | ellipsis :
      Says names (.expr .ellipsis) .warning "ellipsis" "`...` has no C# value; emitted null"
  | yield (value : Option Python.Expr) : Says names (.expr (.yield value)) .warning "yield"
    "yield is only translated as a statement; expression kept as written"
  | yieldFrom (value : Python.Expr) : Says names (.expr (.yieldFrom value)) .warning "yield"
    "yield from is only translated as a statement; expression kept as written"
  | starred (value : Python.Expr) : Says names (.expr (.starred value)) .warning "list_splat"
    "unpacking has no C# equivalent; operand kept"
  | unsupportedExpr (kind text : String) (span : Python.Span) :
    Says names (.expr (.unsupported kind text span)) .warning kind
      "no C# translation; source kept verbatim"
  | lambdaParam (param : Python.Param) :
      Says names (.lambdaParam param) .warning "lambda_parameters"
    ("lambda parameter `" ++ param.name ++ "` loses its default or unpacking")
  | unpackedArgument (value : Python.Expr) :
      Says names (.unpackedArgument value) .warning "dictionary_splat"
    "keyword unpacking has no C# equivalent; mapping passed positionally"
  | unpackedItem (value : Python.Expr) :
      Says names (.unpackedItem value) .warning "dictionary_splat"
    "mapping unpacking has no C# equivalent; operand kept"
  | unpackedTarget (value : Python.Expr) :
      Says names (.unpackedTarget value) .warning "list_splat_pattern"
    "starred unpacking has no C# deconstruction; bound to the single target"
  | deletedItem (value : Python.Expr) (index : List Python.Expr) :
      Says names (.deletedItem value index) .note
    "delete_statement" "del on an item lowered to Remove(); check the collection type"
  /-- A decorator is named as it is written in C#, which depends on the receiver in a method. -/
  | decorator (e : Python.Expr) (s : State) : Says names (.decorator e) .warning "decorator"
    ("decorator `" ++ (lowerExpr names e s).1.text ++ "` is not applied")
  | keywordBase (className name : String) (value : Python.Expr) :
    Says names (.classArgument className (.keyword name value)) .warning "argument_list"
    ("`" ++ name ++ "=` base argument of `" ++ className ++ "` dropped")
  | starBase (className : String) (value : Python.Expr) :
    Says names (.classArgument className (.star value)) .warning "argument_list"
    ("unpacked base argument of `" ++ className ++ "` dropped")
  | doubleStarBase (className : String) (value : Python.Expr) :
    Says names (.classArgument className (.doubleStar value)) .warning "argument_list"
    ("unpacked base argument of `" ++ className ++ "` dropped")
  | mapping (items : List (Python.Pattern × Python.Pattern)) (rest : Option String) :
    Says names (.pattern (.mapping items rest)) .warning "dict_pattern"
    "mapping patterns have no C# equivalent; rendered as a property pattern"
  | unsupportedPattern (kind text : String) (span : Python.Span) :
    Says names (.pattern (.unsupported kind text span)) .warning kind
      "no C# pattern for this; source kept verbatim"
  | breakStmt : Says names (.stmt .breakStmt) .warning "break_statement"
    "break inside match leaves the switch, not the enclosing loop"
  | returnedValue (value : Python.Expr) :
      Says names (.stmt (.returnStmt (some value))) .warning "return_statement"
    "iterator methods cannot return a value; value dropped"
  | cause (exc : Option Python.Expr) (cause : Python.Expr) :
      Says names (.stmt (.raiseStmt exc (some cause))) .note
    "raise_statement" "exception cause (`from ...`) dropped"
  | relativeImport (path : String) (entries : List Python.ImportName) (wildcard : Bool) :
    Says names (.stmt (.importFrom path entries wildcard)) .warning "import_from_statement"
    ("relative import from `" ++ path ++ "` has no C# equivalent")
  | movedClass (definition : Python.ClassDef) :
      Says names (.stmt (.classDef definition)) .note "class_definition"
    ("class `" ++ definition.name ++ "` moved out of its enclosing function")
  | unsupportedStmt (kind text : String) : Says names (.stmt (.unsupported kind text)) .warning kind
    "statement has no C# translation; kept as a comment"

/-- The finding is about the construct of the notice. It stands at the place of the construct itself
if that has one, and else at the place of the innermost statement, `except` clause or `case` around.
-/
structure Reports (names : LibraryNames) (notice : Notice) (finding : Diagnostic) : Prop where
  place : finding.span = notice.construct.ownSpan?.getD notice.place
  words : Says names notice.construct finding.severity finding.kind finding.message

/-! ## Steps that report -/

variable {α β : Type} {names : LibraryNames} {construct : Construct}
  {found first rest : List Construct}

/-- The step stays at its place, only lets frames grow, and reports the constructs there, in their
order. -/
structure Notes (names : LibraryNames) (found : List Construct) (step : Render α) : Prop where
  keepsPlace : KeepsPlace step
  findings (s : State) : ∃ added, (step s).2.diagnostics = s.diagnostics ++ added ∧
    List.Forall₂ (Reports names) (placed s.span found) added

namespace Notes

variable {x : Render α}

theorem quiet (hx : KeepsPlace x) (h : ∀ s, (x s).2.diagnostics = s.diagnostics) :
    Notes names [] x :=
  ⟨hx, fun s => ⟨[], (h s).trans (List.append_nil _).symm, .nil⟩⟩

theorem pure (a : α) : Notes names [] (Pure.pure a : Render α) :=
  quiet (.pure a) fun _ => rfl

/-- What follows a step may depend on what that gives. -/
theorem bindOf {f : α → Render β} (hx : Notes names first x)
    (hf : ∀ s, Notes names rest (f (x s).1)) : Notes names (first ++ rest) (x >>= f) := by
  refine ⟨fun s => ?_, fun s => ?_⟩
  · obtain ⟨hg, hs⟩ := hx.keepsPlace s
    obtain ⟨hg', hs'⟩ := (hf s).keepsPlace (x s).2
    exact ⟨hg.trans hg', hs'.trans hs⟩
  · obtain ⟨added, hadded, hfirst⟩ := hx.findings s
    obtain ⟨more, hmore, hrest⟩ := (hf s).findings (x s).2
    rw [(hx.keepsPlace s).2] at hrest
    refine ⟨added ++ more, ?_, ?_⟩
    · rw [← List.append_assoc, ← hadded]
      exact hmore
    · rw [placed_append]
      exact List.rel_append hfirst hrest

theorem bind {f : α → Render β} (hx : Notes names first x) (hf : ∀ a, Notes names rest (f a)) :
    Notes names (first ++ rest) (x >>= f) :=
  bindOf hx fun _ => hf _

/-- A step that reports one construct comes first. -/
theorem cons {f : α → Render β} (hx : Notes names [construct] x)
    (hf : ∀ a, Notes names rest (f a)) : Notes names (construct :: rest) (x >>= f) :=
  bind hx hf

/-- A step that reports nothing comes first. -/
theorem silent {f : α → Render β} (hx : Notes names [] x) (hf : ∀ a, Notes names rest (f a)) :
    Notes names rest (x >>= f) :=
  bind hx hf

theorem map (hx : Notes names found x) (f : α → β) : Notes names found (do return f (← x)) :=
  ⟨.map hx.keepsPlace f, fun s => hx.findings s⟩

theorem of_eq (hx : Notes names first x) (h : first = rest) : Notes names rest x :=
  h ▸ hx

theorem ite {c : Prop} [Decidable c] {x y : Render α} (hx : Notes names found x)
    (hy : Notes names found y) : Notes names found (if c then x else y) := by
  split
  · exact hx
  · exact hy

theorem forM {step : α → Render PUnit} (h : ∀ a, Notes names [] (step a)) (items : List α) :
    Notes names [] (items.forM step) := by
  induction items with
  | nil => exact pure _
  | cons item rest ih => exact silent (h item) fun _ => ih

end Notes

theorem notes_report {severity : Severity} {kind message : String} {span : Python.Span}
    (h : Says names construct severity kind message) (hown : construct.ownSpan? = some span) :
    Notes names [construct] (report severity kind span message) := by
  refine ⟨keepsPlace_report _ _ _ _, fun s => ⟨_, rfl, .cons ⟨?_, h⟩ .nil⟩⟩
  simp [hown]

/-- A finding at the place of the state. -/
theorem notes_reportHere {severity : Severity} {kind message : String}
    (h : Says names construct severity kind message) (hown : construct.ownSpan? = none) :
    Notes names [construct] (do report severity kind (← get).span message) := by
  refine ⟨.bind .get fun _ => keepsPlace_report _ _ _ _, fun s => ⟨_, rfl, .cons ⟨?_, h⟩ .nil⟩⟩
  simp [hown]

theorem notes_warn {kind message : String} (h : Says names construct .warning kind message)
    (hown : construct.ownSpan? = none) : Notes names [construct] (warn kind message) :=
  notes_reportHere h hown

theorem notes_note {kind message : String} (h : Says names construct .note kind message)
    (hown : construct.ownSpan? = none) : Notes names [construct] (note kind message) :=
  notes_reportHere h hown

theorem notes_receiver : Notes names [] receiver :=
  .quiet keepsPlace_receiver fun _ => rfl

theorem notes_fresh (base : String) : Notes names [] (fresh base) :=
  .quiet (keepsPlace_fresh base) fun _ => rfl

theorem notes_addUsing (directive : String) : Notes names [] (addUsing directive) :=
  .quiet (keepsPlace_addUsing directive) fun _ => rfl

theorem notes_modifyFrame {f : Frame → Frame} (h : ∀ frame : Frame, frame.Grows (f frame)) :
    Notes names [] (modifyFrame f) :=
  .quiet (keepsPlace_modifyFrame h) fun _ => rfl

theorem notes_modifyRoot {f : Frame → Frame} (h : ∀ frame : Frame, frame.Grows (f frame)) :
    Notes names [] (modifyRoot f) :=
  .quiet (keepsPlace_modifyRoot h) fun _ => rfl

/-! ## Expressions -/

theorem notes_lowerName (id : String) : Notes names [] (lowerName id) :=
  .silent notes_receiver fun _ => .ite (.pure _) (.pure _)

theorem Notes.infixed {op : CSharp.BinaryOp} {left right : Render CSharp.Expr}
    (hl : Notes names first left)
    (hr : Notes names rest right) : Notes names (first ++ rest) (infixed op left right) :=
  .bind hl fun _ => .map hr _

theorem Notes.sameObject {left right : Render CSharp.Expr} (hl : Notes names first left)
    (hr : Notes names rest right) : Notes names (first ++ rest) (sameObject left right) :=
  .bind hl fun _ => .map hr _

theorem Notes.contained {item container : Render CSharp.Expr} (hi : Notes names first item)
    (hc : Notes names rest container) : Notes names (rest ++ first) (contained item container) :=
  .bind hc fun _ => .map hi _

theorem Notes.compared {left right : Render CSharp.Expr} (hl : Notes names first left)
    (hr : Notes names rest right) (op : Python.CmpOp) (withNone : Bool) :
    Notes names (comparedInOrder op first rest) (compared op withNone left right) := by
  cases op with
  | is => exact .ite (.infixed hl hr) (.sameObject hl hr)
  | isNot => exact .ite (.infixed hl hr) (.map (.sameObject hl hr) _)
  | isIn => exact .contained hl hr
  | notIn => exact .map (.contained hl hr) _
  | _ => exact .infixed hl hr

theorem notes_lowerLambdaParams (params : List Python.Param) :
    Notes names (reportedParams params) (lowerLambdaParams params) := by
  induction params with
  | nil => exact .pure _
  | cons param others ih =>
    have hothers : Notes names (reportedParams others)
        (do return escapeIdentifier param.name :: (← lowerLambdaParams others)) := .map ih _
    by_cases hloses : (param.default.isSome || param.kind != .normal) = true
    · have hreported :
        reportedParams (param :: others) = .lambdaParam param :: reportedParams others := by
        simp [reportedParams, hloses]
      rw [hreported, lowerLambdaParams, if_pos hloses]
      exact .cons (notes_warn (.lambdaParam param) rfl) fun _ => hothers
    · have hreported : reportedParams (param :: others) = reportedParams others := by
        simp [reportedParams, hloses]
      rw [hreported, lowerLambdaParams, if_neg hloses]
      exact hothers

variable (names)

mutual

theorem notes_lowerExpr : ∀ e : Python.Expr, Notes names e.reported (lowerExpr names e)
  | .name id => notes_lowerName id
  | .int _ => .pure _
  | .float _ => .pure _
  | .imaginary _ => .pure _
  | .str _ => .pure _
  | .fstring parts raw => .map (notes_lowerParts raw parts) _
  | .bool _ => .pure _
  | .none => .pure _
  | .ellipsis => .cons (notes_warn .ellipsis rfl) fun _ => .pure _
  | .binary left _ right => .bind (notes_lowerExpr left) fun _ => .map (notes_lowerExpr right) _
  | .unary _ operand => .map (notes_lowerExpr operand) _
  | .boolean _ left right => .infixed (notes_lowerExpr left) (notes_lowerExpr right)
  | .compare left comparisons =>
    .map (notes_lowerComparisons (notes_lowerExpr left) comparisons) _
  | .ifExp test body orelse =>
    .bind (notes_lowerExpr test) fun _ => .bind (notes_lowerExpr body) fun _ =>
      .map (notes_lowerExpr orelse) _
  | .lambda params body => .bind (notes_lowerLambdaParams params) fun _ =>
      .map (notes_lowerExpr body) _
  | .named target value =>
    .silent (notes_modifyFrame fun frame => frame.grows_record target) fun _ =>
      .silent (notes_lowerName target) fun _ => .map (notes_lowerExpr value) _
  | .attribute value _ => .map (notes_lowerExpr value) _
  | .subscript value index => .bind (notes_lowerExpr value) fun _ => .map (notes_lowerList index) _
  | .slice lower upper step =>
    .bind (notes_lowerOption lower) fun _ => .bind (notes_lowerOption upper) fun _ =>
      .map (notes_lowerOption step) _
  | .call func args => .bind (notes_lowerExpr func) fun _ => .map (notes_lowerArgs args) _
  | .list items => .map (notes_lowerList items) _
  | .set items => .map (notes_lowerList items) _
  | .tuple items => .map (notes_lowerList items) _
  | .dict items => .map (notes_lowerItems items) _
  | .comprehension kind element value clauses => by
    have hc := notes_lowerClauses clauses
    have he := notes_lowerExpr element
    have hv := notes_lowerOption value
    cases kind with
    | dict => exact .bind hc fun _ => .bind he fun _ => .map hv _
    | _ => exact .bind hc fun _ => .map he _
  | .await value => .map (notes_lowerExpr value) _
  | .yield value => .cons (notes_warn (.yield value) rfl) fun _ => .map (notes_lowerOption value) _
  | .yieldFrom value => .cons (notes_warn (.yieldFrom value) rfl) fun _ =>
      .map (notes_lowerExpr value) _
  | .starred value => .cons (notes_warn (.starred value) rfl) fun _ =>
      .map (notes_lowerExpr value) _
  | .unsupported kind text span =>
    .cons (notes_report (.unsupportedExpr kind text span) rfl) fun _ => .pure _

theorem notes_lowerList :
    ∀ items : List Python.Expr, Notes names (reportedList items) (lowerList names items)
  | [] => .pure _
  | e :: rest => .bind (notes_lowerExpr e) fun _ => .map (notes_lowerList rest) _

theorem notes_lowerOption :
    ∀ e : Option Python.Expr, Notes names (reportedOption e) (lowerOption names e)
  | none => .pure _
  | some e => .map (notes_lowerExpr e) _

theorem notes_lowerComparisons {left : Render CSharp.Expr} {before : List Construct}
    (hl : Notes names before left) : ∀ links : List (Python.CmpOp × Python.Expr),
      Notes names (reportedCompared before links) (lowerComparisons names left links)
  | [] => .pure _
  | (op, right) :: rest =>
    .bind (.compared hl (notes_lowerExpr right) op _) fun _ =>
      .map (notes_lowerComparisons (notes_lowerExpr right) rest) _

theorem notes_lowerParts (raw : Bool) :
    ∀ parts : List Python.FStringPart,
      Notes names (reportedParts parts) (lowerParts names raw parts)
  | [] => .pure _
  | .literal _ :: rest => .map (notes_lowerParts raw rest) _
  | .interpolation e _ :: rest =>
    .bind (notes_lowerExpr e) fun _ => .map (notes_lowerParts raw rest) _

theorem notes_lowerArgs :
    ∀ args : List Python.Arg, Notes names (reportedArgs args) (lowerArgs names args)
  | [] => .pure _
  | .positional value :: rest => .bind (notes_lowerExpr value) fun _ =>
      .map (notes_lowerArgs rest) _
  | .keyword _ value :: rest => .bind (notes_lowerExpr value) fun _ => .map (notes_lowerArgs rest) _
  | .star value :: rest => .bind (notes_lowerExpr value) fun _ => .map (notes_lowerArgs rest) _
  | .doubleStar value :: rest =>
    .cons (notes_warn (.unpackedArgument value) rfl) fun _ => .bind (notes_lowerExpr value) fun _ =>
      .map (notes_lowerArgs rest) _

theorem notes_lowerItems :
    ∀ items : List Python.DictItem, Notes names (reportedItems items) (lowerItems names items)
  | [] => .pure _
  | .pair key value :: rest =>
    .bind (notes_lowerExpr key) fun _ => .bind (notes_lowerExpr value) fun _ =>
      .map (notes_lowerItems rest) _
  | .splat value :: rest =>
    .cons (notes_warn (.unpackedItem value) rfl) fun _ => .bind (notes_lowerExpr value) fun _ =>
      .map (notes_lowerItems rest) _

theorem notes_lowerClauses :
    ∀ clauses : List Python.Clause,
      Notes names (reportedClauses clauses) (lowerClauses names clauses)
  | [] => .pure _
  | .forIn target iter :: rest => by
    have hi := notes_lowerExpr iter
    have hr := notes_lowerClauses rest
    have ht := notes_lowerExpr target
    cases target with
    | tuple targets =>
      exact .bind hi fun _ => .silent (notes_fresh "_t") fun _ =>
        .bind (notes_lowerList targets) fun _ => .map hr _
    | list targets =>
      exact .bind hi fun _ => .silent (notes_fresh "_t") fun _ =>
        .bind (notes_lowerList targets) fun _ => .map hr _
    | _ => exact .bind hi fun _ => .bind ht fun _ => .map hr _
  | .onlyIf test :: rest =>
    .bind (notes_lowerExpr test) fun _ => .map (notes_lowerClauses rest) _

end

/-! ## Patterns -/

variable {names} in
theorem Notes.namedPattern {pattern : Python.Pattern} {lowered : Render CSharp.Pattern}
    (h : Notes names pattern.reported lowered) (name : String) :
    Notes names pattern.reported (namedPattern pattern lowered name) := by
  cases pattern with
  | wildcard => exact .pure _
  | _ => exact .map h _

mutual

theorem notes_lowerPattern :
    ∀ pattern : Python.Pattern, Notes names pattern.reported (lowerPattern names pattern)
  | .wildcard => .pure _
  | .capture _ => .pure _
  | .literal value => .map (notes_lowerExpr names value) _
  | .value _ => .pure _
  | .sequence items => .map (notes_lowerPatterns items) _
  | .star _ => .pure _
  | .mapping items rest => .cons (notes_warn (.mapping items rest) rfl) fun _ =>
      .map (notes_lowerEntries items) _
  | .classPattern _ positional keywords =>
    .bind (notes_lowerPatterns positional) fun _ => .map (notes_lowerKeywords keywords) _
  | .either alternatives => .map (notes_lowerPatterns alternatives) _
  | .asName pattern name => .namedPattern (notes_lowerPattern pattern) name
  | .unsupported kind text span => .cons (notes_report (.unsupportedPattern kind text span) rfl)
      fun _ => .pure _

theorem notes_lowerPatterns :
    ∀ patterns : List Python.Pattern,
      Notes names (reportedAll patterns) (lowerPatterns names patterns)
  | [] => .pure _
  | p :: rest => .bind (notes_lowerPattern p) fun _ => .map (notes_lowerPatterns rest) _

theorem notes_lowerEntries : ∀ entries : List (Python.Pattern × Python.Pattern),
    Notes names (reportedEntries entries) (lowerEntries names entries)
  | [] => .pure _
  | (key, value) :: rest =>
    .bind (notes_lowerPattern key) fun _ => .bind (notes_lowerPattern value) fun _ =>
      .map (notes_lowerEntries rest) _

theorem notes_lowerKeywords : ∀ keywords : List (String × Python.Pattern),
    Notes names (reportedKeywords keywords) (lowerKeywords names keywords)
  | [] => .pure _
  | (_, p) :: rest => .bind (notes_lowerPattern p) fun _ => .map (notes_lowerKeywords rest) _

end

theorem notes_lowerCasePattern (tupleSubject : Bool) (pattern : Python.Pattern) :
    Notes names pattern.reported (lowerCasePattern names tupleSubject pattern) := by
  unfold lowerCasePattern
  split
  · exact .ite (.map (notes_lowerPatterns names _) _) (notes_lowerPattern names _)
  · exact notes_lowerPattern names pattern

/-! ## Targets -/

variable {names} in
theorem notes_recordSingle (target : Python.Expr) : Notes names [] (recordSingle target) := by
  refine .quiet (keepsPlace_recordSingle target) fun s => ?_
  unfold recordSingle
  split
  · rfl
  · show (ite _ _ _ : Render PUnit) s |>.2.diagnostics = _
    split <;> rfl
  · rfl

variable {names} in
theorem notes_recordTarget (target : Python.Expr) : Notes names [] (recordTarget target) :=
  .forM notes_recordSingle _

mutual

theorem notes_lowerTarget (target : Python.Expr) :
    Notes names target.reportedTarget (lowerTarget names target) := by
  cases target with
  | tuple items => exact .map (notes_lowerTargets items) _
  | list items => exact .map (notes_lowerTargets items) _
  | starred value =>
      exact .cons (notes_warn (.unpackedTarget value) rfl) fun _ => notes_lowerTarget value
  | _ => exact notes_lowerExpr names _

theorem notes_lowerTargets :
    ∀ targets : List Python.Expr, Notes names (reportedTargets targets) (lowerTargets names targets)
  | [] => .pure _
  | target :: rest => .bind (notes_lowerTarget target) fun _ => .map (notes_lowerTargets rest) _

end

end PythonToCSharp.Lowering
