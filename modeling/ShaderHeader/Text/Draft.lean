/-!
# Drafts

A draft is the text of a header while it is being put together. Nothing else sees it before it is
complete.
-/

namespace ShaderHeader

/-- The text of some lines, each of which is ended by a newline. -/
def joinLines (lines : List String) : String :=
  String.join (lines.map (· ++ "\n"))

@[simp] theorem joinLines_nil : joinLines [] = "" := rfl

@[simp] theorem joinLines_cons (line : String) (lines : List String) :
    joinLines (line :: lines) = line ++ "\n" ++ joinLines lines := by
  simp [joinLines]

@[simp] theorem joinLines_append (lines more : List String) :
    joinLines (lines ++ more) = joinLines lines ++ joinLines more := by
  simp [joinLines]

/-- A text that is not complete yet. -/
structure Draft where
  text : String
  deriving DecidableEq

namespace Draft

def empty : Draft :=
  ⟨""⟩

/-- Adds some text. -/
def push (d : Draft) (text : String) : Draft :=
  ⟨d.text ++ text⟩

/-- Adds whole lines. -/
def pushLines (d : Draft) (lines : List String) : Draft :=
  d.push (joinLines lines)

/-- Adds the text of another draft. -/
def append (d e : Draft) : Draft :=
  d.push e.text

@[simp] theorem text_pushLines (d : Draft) (lines : List String) :
    (d.pushLines lines).text = d.text ++ joinLines lines := rfl

@[simp] theorem text_append (d e : Draft) : (d.append e).text = d.text ++ e.text := rfl

/-- The bytes of the text. -/
def size (d : Draft) : Nat :=
  d.text.utf8ByteSize

/-- Whether there is no text yet. -/
def isEmpty (d : Draft) : Bool :=
  d.size = 0

end Draft

end ShaderHeader
