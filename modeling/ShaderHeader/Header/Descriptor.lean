import ShaderHeader.Edition.Linkage

/-!
# Shader descriptors

A descriptor is what the runtime is given to make a shader: the code of both stages and what is
bound to their slots. Its tables have a fixed size, and the position in a table is the slot. A
position that is not in use is written as a value that the runtime takes for nothing.
-/

namespace ShaderHeader

/-- A vertex input with its semantic. -/
structure AttributeEntry where
  name : String
  semantic : String
  semanticIndex : Nat
  deriving DecidableEq

/-- A uniform block with its size, rounded up to the stride. -/
structure BlockEntry where
  name : String
  size : Nat
  deriving DecidableEq

/-- An image with its type. -/
structure ImageEntry where
  name : String
  type : ImageType
  deriving DecidableEq

/-- Where the code of a stage is found: in an array of source text or in one of bytecode. -/
inductive StageCode
  | source (array : String)
  | bytecode (array : String) (size : Nat)
  deriving DecidableEq

/-- The description of one stage. -/
structure StageDescriptor where
  stage : Stage
  code : StageCode
  entry : String
  blocks : Vector (Option BlockEntry) ResourceKind.block.capacity
  images : Vector (Option ImageEntry) ResourceKind.image.capacity
  deriving DecidableEq

/-- The description of a program for one dialect. -/
structure Descriptor where
  name : String
  attributes : Vector (Option AttributeEntry) attributeCapacity
  vertex : StageDescriptor
  fragment : StageDescriptor
  label : String
  deriving DecidableEq

/-- The description of the stage of a kind. -/
def Descriptor.stage (d : Descriptor) : Stage → StageDescriptor
  | .vertex   => d.vertex
  | .fragment => d.fragment

/-! ### From a linked program -/

/-- The entry of an attribute that is used. -/
def Attribute.entry? (a : Attribute) : Option AttributeEntry :=
  if a.isUsed then some ⟨a.name, a.semantic, a.semanticIndex⟩ else none

/-- The entry of a block whose size can be rounded. -/
def Block.entry? (b : Block) : Option BlockEntry :=
  b.roundedSize?.map fun size => ⟨b.name, size⟩

/-- The entry of an image. -/
def Image.entry (m : Image) : ImageEntry :=
  ⟨m.name, m.type⟩

/-- Where the code of a linked stage is: bytecode goes before source text. -/
def LinkedStage.code (qualifier : String) (d : Dialect) (s : LinkedStage) : StageCode :=
  match s.blob with
  | some blob => .bytecode (Naming.bytecode qualifier s.snippet.name d) blob.data.length
  | none      => .source (Naming.source qualifier s.snippet.name d)

/-- Describes a linked stage. The first block or image at a slot is the one in the table. -/
def StageDescriptor.ofLinked (qualifier : String) (d : Dialect) (stage : Stage)
    (s : LinkedStage) : StageDescriptor where
  stage := stage
  code := s.code qualifier d
  entry := s.source.interface.entry
  blocks := Vector.ofFn fun slot => (s.source.interface.block? slot).bind Block.entry?
  images := Vector.ofFn fun slot => (s.source.interface.image? slot).map Image.entry

/-- Describes a linked program. -/
def Descriptor.ofLinked (qualifier : String) (d : Dialect) (p : LinkedProgram) : Descriptor where
  name := Naming.descriptor qualifier p.program.name d
  attributes := p.vertex.source.interface.inputs.map Attribute.entry?
  vertex := .ofLinked qualifier d .vertex p.vertex
  fragment := .ofLinked qualifier d .fragment p.fragment
  label := Naming.label qualifier p.program.name

@[simp] theorem Descriptor.stage_ofLinked (qualifier : String) (d : Dialect) (p : LinkedProgram)
    (stage : Stage) :
    (Descriptor.ofLinked qualifier d p).stage stage =
      .ofLinked qualifier d stage (p.stage stage) := by
  cases stage <;> rfl

/-! ### In C -/

/-- An attribute in C. -/
def attributeText : Option AttributeEntry → String
  | some a => s!"\x7b\"{a.name}\",\"{a.semantic}\",{a.semanticIndex}\x7d,"
  | none   => "\x7b0,0,0\x7d,"

/-- How many uniforms the runtime has for one block. -/
def blockUniformCapacity : Nat := 16

/-- The uniforms of a block. A block is passed on as a whole, as one array of vectors, so only the
first uniform is in use. -/
def uniformTexts : Option BlockEntry → List String
  | some b =>
    s!"\x7b\"{b.name}\",SG_UNIFORMTYPE_FLOAT4,{b.size / 16}\x7d," ::
      List.replicate (blockUniformCapacity - 1) "\x7b0,SG_UNIFORMTYPE_INVALID,0\x7d,"
  | none   => List.replicate blockUniformCapacity "\x7b0,SG_UNIFORMTYPE_INVALID,0\x7d,"

/-- A uniform block in C. -/
def blockLines (b : Option BlockEntry) : List String :=
  ["      \x7b",
    s!"        {(b.map BlockEntry.size).getD 0}, /* size */",
    "        \x7b /* uniforms */" ++ String.join (uniformTexts b) ++ " \x7d,",
    "      \x7d,"]

/-- An image in C. -/
def imageText : Option ImageEntry → String
  | some m => s!"\x7b\"{m.name}\",{m.type.constant}\x7d,"
  | none   => "\x7b0,_SG_IMAGETYPE_DEFAULT\x7d,"

/-- The code of a stage in C: of source text, bytecode and its size, those not in use are 0. -/
def StageCode.lines : StageCode → List String
  | source array =>
    [s!"    {array}, /* source */", "    0,  /* bytecode */", "    0,  /* bytecode_size */"]
  | bytecode array size =>
    ["    0, /* source */", s!"    {array}, /* bytecode */", s!"    {size}, /* bytecode_size */"]

/-- The description of a stage in C. -/
def StageDescriptor.lines (s : StageDescriptor) : List String :=
  s!"  \x7b /* {s.stage.abbreviation} */" :: s.code.lines ++
  [s!"    \"{s.entry}\", /* entry */",
    "    \x7b /* uniform blocks */"] ++
  s.blocks.toList.flatMap blockLines ++
  ["    \x7d,",
    "    \x7b /* images */ " ++ String.join (s.images.toList.map imageText) ++ " \x7d,",
    "  \x7d,"]

/-- The definition of the descriptor. -/
def Descriptor.lines (d : Descriptor) : List String :=
  [s!"static const sg_shader_desc {d.name} = \x7b",
    "  0, /* _start_canary */",
    "  \x7b /*attrs*/" ++ String.join (d.attributes.toList.map attributeText) ++ " \x7d,"] ++
  d.vertex.lines ++ d.fragment.lines ++
  [s!"  \"{d.label}\", /* label */",
    "  0, /* _end_canary */",
    "\x7d;"]

end ShaderHeader
