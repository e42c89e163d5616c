import ShaderHeader.Header.Declarations

/-!
# The guide

A header opens with a comment for its reader: which programs there are, what is bound to their
stages, and how the declarations are used.
-/

namespace ShaderHeader

/-! ### What the guide tells -/

/-- A uniform block with its struct and its constant. -/
structure BlockGuide where
  name : String
  struct : String
  constant : Constant
  uniforms : List String
  deriving DecidableEq

/-- An image with its constant. -/
structure ImageGuide where
  name : String
  type : ImageType
  constant : Constant
  deriving DecidableEq

/-- A stage of a program, by the name of its snippet, with all that is bound to it. -/
structure StageGuide where
  snippet : String
  blocks : List BlockGuide
  images : List ImageGuide
  deriving DecidableEq

/-- A program with its accessor and its two stages. -/
structure ProgramGuide where
  name : String
  accessor : String
  locations : List Constant
  vertex : StageGuide
  fragment : StageGuide
  deriving DecidableEq

/-- All that the guide tells, in the order in which it tells it. -/
structure Guide where
  version : Nat
  programs : List ProgramGuide
  inputs : List VertexInputs
  images : List Constant
  blocks : List BlockGuide
  deriving DecidableEq

variable (qualifier : String)

def Block.guide (b : Block) : BlockGuide :=
  ⟨b.name, Naming.struct qualifier b.name, slotConstant qualifier b,
    b.uniforms.map Uniform.name⟩

def Image.guide (m : Image) : ImageGuide :=
  ⟨m.name, m.type, slotConstant qualifier m⟩

def Interface.guide (snippet : String) (i : Interface) : StageGuide :=
  ⟨snippet, i.blocks.map (Block.guide qualifier), i.images.map (Image.guide qualifier)⟩

def LinkedProgram.guide (p : LinkedProgram) : ProgramGuide where
  name := p.program.name
  accessor := Naming.accessor qualifier p.program.name
  locations := p.vertex.source.interface.locations qualifier p.vertex.snippet.name
  vertex := p.vertex.source.interface.guide qualifier p.program.vertex
  fragment := p.fragment.source.interface.guide qualifier p.program.fragment

/-- The guide to an edition; the version is that of the format of headers. -/
def Guide.ofEdition (f : ShaderFile) (version : Nat) (e : Edition) : Guide where
  version := version
  programs := e.programs.map (LinkedProgram.guide f.qualifier)
  inputs := vertexInputs f e.compilation
  images := imageConstants f e.bindings
  blocks := e.bindings.blocks.holders.map (Block.guide f.qualifier)

/-! ### How it is written -/

/-- A uniform block in the listing of a stage. -/
def BlockGuide.stageLines (b : BlockGuide) : List String :=
  [s!"                Uniform block '{b.name}':",
    s!"                    C struct: {b.struct}",
    s!"                    Bind slot: {b.constant.name} = {b.constant.value}"]

/-- An image in the listing of a stage. -/
def ImageGuide.stageLines (m : ImageGuide) : List String :=
  [s!"                Image '{m.name}':",
    s!"                    Type: {m.type.constant}",
    s!"                    Bind slot: {m.constant.name} = {m.constant.value}"]

/-- The listing of a stage, blocks first. -/
def StageGuide.lines (s : StageGuide) : List String :=
  s.blocks.flatMap BlockGuide.stageLines ++ s.images.flatMap ImageGuide.stageLines

/-- The listing of a program. -/
def ProgramGuide.lines (p : ProgramGuide) : List String :=
  [s!"        Shader program '{p.name}':",
    s!"            Get shader desc: {p.accessor}()",
    s!"            Vertex shader: {p.vertex.snippet}",
    "                Attribute slots:"] ++
  p.locations.map (fun c => s!"                    {c.name} = {c.value}") ++
  p.vertex.lines ++
  [s!"            Fragment shader: {p.fragment.snippet}"] ++
  p.fragment.lines ++ [""]

/-- How a shader is made from a program. -/
def ProgramGuide.usageLine (p : ProgramGuide) : String :=
  s!"        sg_shader {p.name} = sg_make_shader({p.accessor}());"

/-- How the inputs of a vertex snippet are described to the runtime. -/
def VertexInputs.usageLines (v : VertexInputs) : List String :=
  [s!"    Vertex attribute locations for vertex shader '{v.snippet}':",
    "",
    "        sg_pipeline pip = sg_make_pipeline(&(sg_pipeline_desc)\x7b",
    "            .layout = \x7b",
    "                .attrs = \x7b"] ++
  v.locations.map (fun c => s!"                    [{c.name}] = \x7b ... \x7d,") ++
  ["                \x7d,",
    "            \x7d,",
    "            ...\x7d);",
    ""]

/-- How a uniform block is filled. -/
def BlockGuide.usageLines (b : BlockGuide) : List String :=
  [s!"    Bind slot and C-struct for uniform block '{b.name}':",
    "",
    s!"        {b.struct} {b.name} = \x7b"] ++
  b.uniforms.map (fun u => s!"            .{u} = ...;") ++
  ["        \x7d;",
    "        sg_apply_uniforms(SG_SHADERSTAGE_[VS|FS], " ++
      s!"{b.constant.name}, &{b.name}, sizeof({b.name}));",
    ""]

/-- The guide as a comment, and what the declarations after it need. -/
def Guide.lines (g : Guide) : List String :=
  ["/*",
    s!"    #version:{g.version}# (machine generated, don't edit!)",
    "",
    "    Generated by sokol-shdc (https://github.com/floooh/sokol-tools)",
    "",
    "    Overview:",
    ""] ++
  g.programs.flatMap ProgramGuide.lines ++
  ["",
    "    Shader descriptor structs:",
    ""] ++
  g.programs.map ProgramGuide.usageLine ++ [""] ++
  g.inputs.flatMap VertexInputs.usageLines ++
  ["    Image bind slots, use as index in sg_bindings.vs_images[] or .fs_images[]",
    ""] ++
  g.images.map (fun c => s!"        {c.name} = {c.value};") ++ [""] ++
  g.blocks.flatMap BlockGuide.usageLines ++
  ["*/",
    "#include <stdint.h>",
    "#include <stdbool.h>"]

end ShaderHeader
