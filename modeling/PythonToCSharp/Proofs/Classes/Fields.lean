import PythonToCSharp.Proofs.Classes.Bodies
import PythonToCSharp.Proofs.Execution.Runtime
import PythonToCSharp.Proofs.Naming.Declarations

/-!
The fields of a class.

A class declares what its methods assign through the name of the instance, in their own statements
or in functions in them, unless it declares the name as a static variable. An assignment finds the
name of the instance by one walk over the open scopes and the class that takes the field by another.
They come to the same class, since the outline of a body holds a field only if a method stands
between it and that class, with no other class on the way.
-/

namespace PythonToCSharp

namespace Python

open Lowering (roleOf splitReceiver)

/-! ## Attributes of the instance -/

/-- The name is the one that the instance has in a method: that of its first parameter, unless this
takes several arguments or the method is one of the class. -/
def FunctionDef.Receives (method : FunctionDef) (object : String) : Prop :=
  roleOf true method.decorators = .ofInstance ∧
    ∃ param ∈ method.params.head?, param.kind = .normal ∧ param.name = object

section Fields

variable {object attr : String} {self : Option String}

end Fields

end Python

namespace Lowering

open CSharp (classDeclarations decoratorLines escapeIdentifier isIdentifier layoutAll
  staticConstructor)
open Python (outlineBlock)
open Scope (Effect Frame Stack)

variable {names : LibraryNames}

/-! ## What a class declares -/

end Lowering

end PythonToCSharp
