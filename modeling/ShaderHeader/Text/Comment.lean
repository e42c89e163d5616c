/-!
# Source text in comments

Beside the bytes of a compiled stage the header shows its source text, indented in a block comment.
-/

namespace ShaderHeader

/-- A line without the carriage return at its end. -/
def dropReturn (line : List Char) : List Char :=
  if line.getLast? = some '\r' then line.dropLast else line

/-- The lines of a text. A newline ends a line, and a carriage return directly in front of it goes
with it. What follows the last newline is a line as it stands, unless it is empty. -/
def textLines (text : String) : List String :=
  let pieces := text.toList.splitOn '\n'
  let ended := pieces.dropLast.map dropReturn
  let rest := pieces.getLast?.toList.filter (· ≠ [])
  (ended ++ rest).map String.ofList

/-- A text as a comment. -/
def commentLines (text : String) : List String :=
  "/*" :: (textLines text).map ("    " ++ ·) ++ ["*/"]

end ShaderHeader
