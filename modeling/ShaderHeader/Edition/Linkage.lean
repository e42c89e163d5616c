import ShaderHeader.Failure
import ShaderHeader.Shader.Compilation

/-!
# Linked programs

A program names its snippets. Linking it finds, for each of its two stages, the snippet and what a
compilation holds for it.
-/

namespace ShaderHeader

/-- A stage of a program with all that belongs to it. -/
structure LinkedStage where
  snippet : Snippet
  source : Source
  blob : Option Blob
  deriving DecidableEq

/-- A program with both of its stages. -/
structure LinkedProgram where
  program : Program
  vertex : LinkedStage
  fragment : LinkedStage
  deriving DecidableEq

/-- The stage of a kind. -/
def LinkedProgram.stage (p : LinkedProgram) : Stage → LinkedStage
  | .vertex   => p.vertex
  | .fragment => p.fragment

variable (f : ShaderFile) (d : Dialect) (c : Compilation) (p : Program)

/-- Links one stage of a program. The snippet has to exist, to be code of this stage and to have a
source; the last is reported at the line of the snippet, the rest at the line of the program. -/
def linkStage? (stage : Stage) : Except Failure LinkedStage :=
  let name := p.snippet stage
  match f.findSnippet? name with
  | none          => .error (f.failure p.line (.unknownSnippet stage name p.name))
  | some position =>
    match f.snippets[position]? with
    | none         => .error (f.failure p.line (.danglingSnippet name p.name))
    | some snippet =>
      if snippet.kind ≠ .stage stage then
        .error (f.failure p.line (.wrongStage stage name p.name))
      else
        match c.source? position with
        | none        => .error (f.failure snippet.line (.missingStageSource d stage name p.name))
        | some source => .ok ⟨snippet, source, c.blob? position⟩

/-- Links a program, its vertex stage first. -/
def linkProgram? : Except Failure LinkedProgram := do
  let vertex ← linkStage? f d c p .vertex
  let fragment ← linkStage? f d c p .fragment
  return ⟨p, vertex, fragment⟩

end ShaderHeader
