import ShaderHeader.Edition
import ShaderHeader.Header.Descriptor
import ShaderHeader.Text.ByteTable
import ShaderHeader.Text.Comment
import ShaderHeader.Text.Conditional

/-!
# Sections

A section holds what a header has for one dialect: the code of all stages and the descriptors of all
programs.
-/

namespace ShaderHeader

/-- The code of a stage: its source text, for the reader, and what is embedded. -/
structure Embedding where
  text : String
  table : ByteTable
  deriving DecidableEq

namespace Embedding

/-- Embeds bytecode if there is some, and otherwise the source text. -/
def ofSource (qualifier : String) (d : Dialect) (snippet : String) (s : Source) (b : Option Blob) :
    Embedding where
  text := s.code
  table :=
    match b with
    | some blob => .ofBytecode (Naming.bytecode qualifier snippet d) blob.data
    | none      => .ofText (Naming.source qualifier snippet d) s.code

/-- The source text as a comment, and the array after it. -/
def lines (e : Embedding) : List String :=
  commentLines e.text ++ e.table.lines

end Embedding

/-- The part of a header for one dialect; the guard is the symbol on which it depends. -/
structure Section where
  guard : Option String
  code : List Embedding
  descriptors : List Descriptor
  deriving DecidableEq

namespace Section

variable (f : ShaderFile) (e : Edition)

/-- What is embedded for a snippet at a position: nothing unless it is the code of a stage. -/
def embed? (s : Snippet × Nat) : Option Embedding :=
  if s.1.isStage then
    (e.compilation.source? s.2).map fun source =>
      .ofSource f.qualifier e.dialect s.1.name source (e.compilation.blob? s.2)
  else none

/-- The section of an edition. Code comes in the order of the file, and so do programs. -/
def ofEdition (guarded : Bool) : Section where
  guard := e.dialect.guard guarded
  code := f.snippets.zipIdx.filterMap (embed? f e)
  descriptors := e.programs.map (Descriptor.ofLinked f.qualifier e.dialect)

/-- The section in C. -/
def lines (s : Section) : List String :=
  conditional "" s.guard
    (s.code.flatMap Embedding.lines ++ s.descriptors.flatMap Descriptor.lines)

end Section

end ShaderHeader
