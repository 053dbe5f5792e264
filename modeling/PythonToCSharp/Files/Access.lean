/-!
What the program asks of a file system: whether a path leads to something, the text of a file, and a
new text for a file. A failure is told by its cause.
-/

namespace PythonToCSharp.Files

structure Access (m : Type → Type) where
  /-- Whether there is something at a path. -/
  has : String → m Bool
  read : String → m (Except String String)
  write : String → String → m (Except String Unit)

end PythonToCSharp.Files
