import ShaderHeader.Edition.Agreement
import ShaderHeader.Header.Accessor
import ShaderHeader.Header.Guide
import ShaderHeader.Header.Section
import ShaderHeader.Path
import ShaderHeader.Text.Draft

/-!
# Headers

A header holds the shaders of one file for some dialects. It opens with what all of them share,
taken from the first edition; then comes a section for each dialect and an accessor for each
program. It is made only if every dialect has an edition and all editions agree with the first one.
-/

namespace ShaderHeader

/-- How a header is to be made. -/
structure Options where
  /-- The path of the header, by which it asks to be included. -/
  output : String
  dialects : DialectSet
  /-- Whether the parts for one dialect depend on the dialect's symbol. -/
  guarded : Bool := true
  version : Nat := 1
  deriving DecidableEq

/-- A header for every dialect that has been compiled. -/
def Options.ofCompilations (cs : Compilations) (output : String) : Options :=
  { output, dialects := cs.dialects }

/-! ### The opening -/

/-- What all dialects share. -/
structure Opening where
  guide : Guide
  declarations : Declarations
  /-- The name under which the header is known to those who include it. -/
  fileName : String
  deriving DecidableEq

namespace Opening

/-- The opening of a header whose first edition is given. -/
def ofEdition? (f : ShaderFile) (o : Options) (e : Edition) : Except Failure Opening := do
  let declarations ← Declarations.ofEdition? f e
  return ⟨.ofEdition f o.version e, declarations, (Path.fileName? o.output).getD o.output⟩

/-- The opening ends inside of a condition that the end of the header closes: whoever wants the
declarations only defines a symbol. -/
def lines (s : Opening) : List String :=
  s.guide.lines ++ s.declarations.lines ++
  ["#if !defined(SOKOL_SHDC_DECL)",
    "#if !defined(SOKOL_GFX_INCLUDED)",
    s!"#error \"Please include sokol_gfx.h before {s.fileName}\"",
    "#endif"]

end Opening

/-! ### The header -/

/-- A header, part by part, and the warnings that go with it. Without dialects there is no
opening. -/
structure Header where
  opening : Option Opening := none
  sections : List Section := []
  accessors : List Accessor
  warnings : List Warning := []
  deriving DecidableEq

namespace Header

variable (f : ShaderFile) (cs : Compilations)

/-- The editions for some dialects, each of which has to agree with the first one. -/
def followers? (first : Edition) : List Dialect → Except Failure (List Edition)
  | []      => .ok []
  | d :: ds => do
    let e ← Edition.check? f d cs
    first.checkAgreement f e
    let es ← followers? first ds
    return e :: es

/-- The accessors of all programs. -/
def accessorsFor (o : Options) : List Accessor :=
  f.programs.values.map fun p =>
    .ofProgram f.qualifier o.guarded o.dialects.toList p.name

/-- Makes a header. The first dialect that fails, in canonical order, is the one reported: for its
own edition or for its disagreement with the first edition. -/
def make? (o : Options) : Except Failure Header :=
  match o.dialects.toList with
  | []      => .ok { accessors := accessorsFor f o }
  | d :: ds => do
    let first ← Edition.check? f d cs
    let opening ← Opening.ofEdition? f o first
    let others ← followers? f cs first ds
    return {
      opening := some opening
      sections := (first :: others).map (Section.ofEdition f · o.guarded)
      accessors := accessorsFor f o
      warnings := first.bindings.shadowed ++ opening.declarations.warnings }

/-- The header in C. -/
def lines (h : Header) : List String :=
  ["#pragma once"] ++
  h.opening.toList.flatMap Opening.lines ++
  h.sections.flatMap Section.lines ++
  h.accessors.flatMap Accessor.lines ++
  if h.opening.isSome then ["#endif /* SOKOL_SHDC_DECL */"] else []

/-- The text of a header. -/
def draft (h : Header) : Draft :=
  Draft.empty.pushLines h.lines

end Header

end ShaderHeader
