import ShaderHeader.Edition.Bindings
import ShaderHeader.Edition.Linkage

/-!
# Editions

An edition is the compilation of a shader file for one dialect, with its programs linked and its
slots bound. `Edition.check?` makes one if the compilation can be written out: it is complete, every
stage fits the runtime's tables, every block has a host struct, and the stages of every program fit
each other. The first check that fails is the one reported.
-/

namespace ShaderHeader

/-- A compilation that is ready to be written out. -/
structure Edition where
  dialect : Dialect
  compilation : Compilation
  programs : List LinkedProgram
  bindings : Bindings
  deriving DecidableEq

/-! ### Checks of one source -/

/-- The slots lie within the runtime's table, and none is used twice or is taken already. -/
def checkSlots {α : Type} [Resource α] : List Nat → List α → Except Fault Unit
  | _, []          => .ok ()
  | taken, r :: rs =>
    let name := Resource.name r
    let slot := Resource.slot r
    if (Resource.kind α).capacity ≤ slot then
      .error (.slotBeyondTable (Resource.kind α) name slot)
    else if slot ∈ taken then .error (.slotReused (Resource.kind α) name slot)
    else checkSlots (slot :: taken) rs

/-- The block has a host struct. -/
def checkBlock (types : NameTable String) (b : Block) : Except Fault Unit :=
  match HostStruct.ofBlock? types b with
  | .ok _        => .ok ()
  | .error fault => .error (.layout b.name fault)

/-- The slots of blocks, then those of images, then the layouts of blocks. -/
def checkInterface (types : NameTable String) (i : Interface) : Except Fault Unit := do
  checkSlots [] i.blocks
  checkSlots [] i.images
  i.blocks.forM (checkBlock types)

variable (f : ShaderFile)

/-- The interface of a source can be written. If not, the line of its snippet is reported. -/
def checkSource (s : Source) : Except Failure Unit :=
  (checkInterface f.types s.interface).mapError (f.failure (f.snippetLine s.snippet))

/-! ### Checks of a compilation -/

variable (d : Dialect) (c : Compilation)

/-- A snippet at a position has a source if it is the code of a stage. -/
def checkSnippet (s : Snippet × Nat) : Except Failure Unit :=
  if s.1.isStage && (c.source? s.2).isNone then
    .error (f.failure s.1.line (.missingSource d s.1.name))
  else .ok ()

/-- There is bytecode only if the dialect takes it. If not, the line is that of the first piece. -/
def checkBlobs : Except Failure Unit :=
  match d.takesBytecode, c.blobs with
  | false, b :: _ => .error (f.failure (f.snippetLine b.snippet) (.refusedBytecode d))
  | _, _          => .ok ()

/-- The first location at which two tables differ, with its two attributes. -/
def firstDifference? (t u : AttributeTable) : Option ((Attribute × Attribute) × Nat) :=
  (t.toList.zip u.toList).zipIdx.find? fun x => x.1.1 ≠ x.1.2

/-- What leaves the vertex stage is what enters the fragment stage, location by location. -/
def checkLink (p : LinkedProgram) : Except Failure Unit :=
  match firstDifference? p.vertex.source.interface.outputs p.fragment.source.interface.inputs with
  | none                      => .ok ()
  | some ((out, into), place) =>
    .error (f.failure p.program.line
      (.unlinked p.program.vertex p.program.fragment place out.name into.name))

/-- Links a program whose stages fit each other. -/
def linkChecked? (p : Program) : Except Failure LinkedProgram := do
  let linked ← linkProgram? f d c p
  checkLink f linked
  return linked

/-- The edition of a shader file for a dialect, if all checks succeed. -/
def Edition.check? (cs : Compilations) : Except Failure Edition :=
  match cs d with
  | none   => .error (f.failure 0 (.missingCompilation d))
  | some c => do
    f.snippets.zipIdx.forM (checkSnippet f d c)
    c.sources.forM (checkSource f)
    checkBlobs f d c
    let programs ← f.programs.values.mapM (linkChecked? f d c)
    let bindings ← Bindings.ofCompilation? f c
    return ⟨d, c, programs, bindings⟩

end ShaderHeader
