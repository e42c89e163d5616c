import ShaderHeader.Edition

/-!
# Shared declarations

Constants and structs do not depend on the dialect. They are declared once, from the first edition:
a constant for the location of every vertex input and for the slot of every image, and for every
uniform block a constant and a struct.
-/

namespace ShaderHeader

/-! ### Constants -/

/-- The constants of the used inputs of a vertex snippet. -/
def Interface.locations (qualifier snippet : String) (i : Interface) : List Constant :=
  i.inputs.used.filterMap fun a =>
    a.slot.map fun slot => ⟨Naming.location qualifier snippet a.name, slot⟩

/-- The constant with the slot of a resource. -/
def slotConstant {α : Type} [Resource α] (qualifier : String) (r : α) : Constant :=
  ⟨Naming.slot qualifier (Resource.name r), Resource.slot r⟩

/-- A vertex snippet with the constants of its inputs. -/
structure VertexInputs where
  snippet : String
  locations : List Constant
  deriving DecidableEq

/-- The inputs of a source that is a vertex stage of a snippet in the file. -/
def vertexInputs? (f : ShaderFile) (s : Source) : Option VertexInputs :=
  if s.interface.stage = .vertex then
    f.snippets[s.snippet]?.map fun snippet =>
      ⟨snippet.name, s.interface.locations f.qualifier snippet.name⟩
  else none

/-- The inputs of all vertex stages, in the order of the sources. -/
def vertexInputs (f : ShaderFile) (c : Compilation) : List VertexInputs :=
  c.sources.filterMap (vertexInputs? f)

/-- The constants of all vertex inputs. -/
def locationConstants (f : ShaderFile) (c : Compilation) : List Constant :=
  (vertexInputs f c).flatMap VertexInputs.locations

/-- The constants of all images. -/
def imageConstants (f : ShaderFile) (b : Bindings) : List Constant :=
  b.images.holders.map (slotConstant f.qualifier)

/-! ### Structs -/

/-- The structs of some blocks up to the first one that has none, and why that has none. -/
def hostStructs (types : NameTable String) : List Block → List HostStruct × Option Fault
  | []      => ([], none)
  | b :: bs =>
    match HostStruct.ofBlock? types b with
    | .error fault => ([], some (.layout b.name fault))
    | .ok struct   =>
      let (structs, fault) := hostStructs types bs
      (struct :: structs, fault)

/-- The definition of the alignment that structs are declared with, for compilers of both kinds. -/
def alignmentLines : List String :=
  ["#if !defined(SOKOL_SHDC_ALIGN)",
    "#if defined(_MSC_VER)",
    "#define SOKOL_SHDC_ALIGN(a) __declspec(align(a))",
    "#else",
    "#define SOKOL_SHDC_ALIGN(a) __attribute__((aligned(a)))",
    "#endif",
    "#endif"]

/-! ### All of them -/

/-- What is declared once for all dialects. -/
structure Declarations where
  qualifier : String
  locations : List Constant
  images : List Constant
  structs : List HostStruct
  deriving DecidableEq

namespace Declarations

/-- The declarations of an edition. A block without a struct is reported without a line. -/
def ofEdition? (f : ShaderFile) (e : Edition) : Except Failure Declarations :=
  match hostStructs f.types e.bindings.blocks.holders with
  | (_, some fault)  => .error (f.failure 0 fault)
  | (structs, none) => .ok
    { qualifier := f.qualifier
      locations := locationConstants f e.compilation
      images := imageConstants f e.bindings
      structs := structs }

/-- The constants of the structs' blocks. -/
def blocks (d : Declarations) : List Constant :=
  d.structs.map (HostStruct.constant d.qualifier)

/-- Every constant that is defined. -/
def constants (d : Declarations) : List Constant :=
  d.locations ++ d.images ++ d.blocks

/-- The warnings of all structs. -/
def warnings (d : Declarations) : List Warning :=
  d.structs.flatMap HostStruct.warnings

/-- The declarations in C. -/
def lines (d : Declarations) : List String :=
  alignmentLines ++ d.locations.map Constant.line ++ d.images.map Constant.line ++
    d.structs.flatMap (HostStruct.lines d.qualifier)

end Declarations

end ShaderHeader
