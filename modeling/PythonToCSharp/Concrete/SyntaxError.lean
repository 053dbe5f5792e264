import PythonToCSharp.Concrete.Tree
import PythonToCSharp.Text.Blank
import PythonToCSharp.Text.Lines

/-!
The syntax errors of a concrete tree: its missing tokens and the pieces of text that fit no rule,
outermost ones only, in preorder. Subtrees that hold no error are skipped.
-/

namespace PythonToCSharp.Concrete

open PythonToCSharp.Python (Span)

structure SyntaxError where
  span : Span
  message : String
  deriving DecidableEq, Repr

def SyntaxError.display (error : SyntaxError) : String :=
  toString error.span.line ++ ":" ++ toString error.span.column ++ ": " ++ error.message

/-- The one line that sums up a list of errors: the first of them and how many there are beside it.
-/
def summary : List SyntaxError → String
  | [] => "syntax error"
  | [error] => "syntax error at " ++ error.display
  | error :: rest =>
    "syntax error at " ++ error.display ++ " (and " ++ toString rest.length ++ " more)"

/-- The most characters of a text that an error message shows. -/
def snippetLimit : Nat := 24

/-- How an error message shows a text that fits no rule: the first line, without the blanks around
it. -/
def unexpected (text : String) : String :=
  let snippet := Text.trimChars ((Text.lineChars text.toList).headD [])
  if snippet.isEmpty then "unexpected input"
  else if snippet.length > snippetLimit then
    "unexpected `" ++ String.ofList (snippet.take snippetLimit) ++ "...`"
  else "unexpected `" ++ String.ofList snippet ++ "`"

mutual

/-- The syntax errors of a tree, in preorder. -/
def syntaxErrors : Node → List SyntaxError
  | .node info _ children =>
    if info.isMissing then [⟨info.span, "missing `" ++ info.kind ++ "`"⟩]
    else if info.isError then [⟨info.span, unexpected info.text⟩]
    else if info.hasError then syntaxErrorsAll children
    else []

def syntaxErrorsAll : List Node → List SyntaxError
  | [] => []
  | t :: rest => syntaxErrors t ++ syntaxErrorsAll rest

end

end PythonToCSharp.Concrete
