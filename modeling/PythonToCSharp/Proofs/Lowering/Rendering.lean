import PythonToCSharp.Proofs.Lowering.Composition
import PythonToCSharp.Proofs.Lowering.Steps

/-!
Lowering an expression or a pattern stays at its place and only lets frames grow, whatever the
expression is and whatever the state.
-/

namespace PythonToCSharp.Lowering

theorem Composed.keepsPlace {α : Type} {x : Render α} (h : Composed x) : KeepsPlace x := by
  induction h with
  | pure a => exact .pure a
  | bind _ _ ihx ihf => exact .bind ihx ihf
  | get => exact .get
  | report severity kind span message => exact keepsPlace_report severity kind span message
  | record name => exact keepsPlace_modifyFrame fun frame => frame.grows_record name
  | fresh base => exact keepsPlace_fresh base

theorem keepsPlace_lowerExpr (names : LibraryNames) (e : Python.Expr) :
    KeepsPlace (lowerExpr names e) :=
  (composed_lowerExpr names e).keepsPlace

theorem keepsPlace_lowerList (names : LibraryNames) (items : List Python.Expr) :
    KeepsPlace (lowerList names items) :=
  (composed_lowerList names items).keepsPlace

theorem keepsPlace_lowerOption (names : LibraryNames) (e : Option Python.Expr) :
    KeepsPlace (lowerOption names e) :=
  (composed_lowerOption names e).keepsPlace

end PythonToCSharp.Lowering
