import ShaderPipeline.Text.Blank

/-!
Lines of a text.

A line ends at a newline; a carriage return just before that newline belongs to the line end.  What
follows the last newline is a line of its own when it is not empty, and keeps its carriage return.
-/

set_option autoImplicit false
set_option relaxedAutoImplicit false

namespace ShaderPipeline.Text

def dropReturn : List Char → List Char
  | [] => []
  | ['\r'] => []
  | c :: cs => c :: dropReturn cs

/-- The lines among pieces cut at newlines: all but the last piece end in a newline. -/
def linesOfPieces : List (List Char) → List (List Char)
  | [] => []
  | [last] => if last.isEmpty then [] else [last]
  | p :: q :: ps => dropReturn p :: linesOfPieces (q :: ps)

def charLines (cs : List Char) : List (List Char) :=
  linesOfPieces (pieces (· == '\n') cs)

def lines (s : String) : List String :=
  (charLines s.toList).map String.ofList

def unlines (ls : List String) : String :=
  String.join (ls.map (· ++ "\n"))

def joinLines (ls : List String) : String :=
  "\n".intercalate ls

end ShaderPipeline.Text
