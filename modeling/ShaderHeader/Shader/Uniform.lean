import ShaderHeader.Word

/-!
# Uniforms

A uniform block is a piece of memory that the host fills for one stage. The device has already
decided where each of its uniforms lies; offsets and sizes are in bytes.
-/

namespace ShaderHeader

/-- The type of one element of a uniform. The host cannot express an `unsupported` one. -/
inductive UniformType
  | unsupported
  | float
  | float2
  | float3
  | float4
  | mat4
  deriving DecidableEq

namespace UniformType

/-- The bytes of one element. An unsupported element takes none. -/
def size : UniformType → Nat
  | unsupported => 0
  | float       => 4
  | float2      => 8
  | float3      => 12
  | float4      => 16
  | mat4        => 64

/-- The floats of one element. -/
def components (t : UniformType) : Nat :=
  t.size / 4

/-- The type's name in shading code, under which a host type may be given for it. -/
def name? : UniformType → Option String
  | unsupported => none
  | float       => some "float"
  | float2      => some "vec2"
  | float3      => some "vec3"
  | float4      => some "vec4"
  | mat4        => some "mat4"

end UniformType

/-- A member of a uniform block: `count` elements that start at `offset`. -/
structure Uniform where
  name : String
  type : UniformType
  offset : Nat
  count : Nat := 1
  deriving DecidableEq

/-- The bytes of all elements together, if they are a word. -/
def Uniform.hostSize? (u : Uniform) : Option Nat :=
  word? (u.type.size * u.count)

/-- A uniform block with its uniforms in order of declaration; `size` is not rounded yet. -/
structure Block where
  name : String
  slot : Nat
  size : Nat
  uniforms : List Uniform := []
  deriving DecidableEq

/-- The stride of uniform blocks, on which host and device agree. -/
def blockStride : Nat := 16

/-- The declared size, rounded up to the stride. -/
def Block.roundedSize? (b : Block) : Option Nat :=
  roundUp? b.size blockStride

end ShaderHeader
