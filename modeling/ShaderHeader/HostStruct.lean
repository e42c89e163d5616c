import ShaderHeader.NameTable
import ShaderHeader.Text.Constant
import ShaderHeader.Warning

/-!
# Uniform blocks on the host

The host fills a uniform block through a packed C struct. The device has fixed the offset of every
uniform, so the struct has to reproduce those offsets: gaps become explicit padding, and so does
the rest of the last stride. `HostStruct.ofBlock?` either finds such a struct or says which uniform
stands in the way.
-/

namespace ShaderHeader

/-! ### Members -/

/-- How the host writes the type of a uniform. -/
inductive HostType
  | named (type : String)
  | floats (components : Nat)
  | unsupported
  deriving DecidableEq

/-- The host type given for a uniform type by name, and plain floats if none is given. -/
def HostType.ofUniformType (types : NameTable String) (t : UniformType) : HostType :=
  match t.name? with
  | none      => .unsupported
  | some name =>
    match types.find? name with
    | some type => .named type
    | none      => .floats t.components

/-- An array dimension, which a single element does not need. -/
def dimension (n : Nat) : String :=
  if n = 1 then "" else s!"[{n}]"

/-- A member of a host struct: bytes that nobody uses, or a uniform at its offset. -/
inductive Member
  | padding (offset length : Nat)
  | field (name : String) (offset : Nat) (type : HostType) (count : Nat)
  deriving DecidableEq

namespace Member

/-- Where a member starts. -/
def offset : Member → Nat
  | padding offset _   => offset
  | field _ offset _ _ => offset

/-- The declaration of a member. -/
def line : Member → String
  | padding offset length             => s!"    uint8_t _pad_{offset}[{length}];"
  | field name _ (.named type) count  => s!"    {type} {name}{dimension count};"
  | field name _ (.floats size) count => s!"    float {name}{dimension count}{dimension size};"
  | field _ _ .unsupported _          => "    INVALID_UNIFORM_TYPE;"

end Member

/-! ### Faults -/

/-- Why no packed struct reproduces a uniform block. -/
inductive LayoutFault
  | overlap (uniform : String) (offset cursor : Nat)
  | emptyArray (uniform : String)
  | memberOverflow (uniform : String)
  | blockOverflow (size : Nat)
  | oversized (needed declared : Nat)
  deriving DecidableEq

/-- The fault in words. -/
def LayoutFault.message : LayoutFault → String
  | overlap uniform offset cursor =>
    s!"uniform '{uniform}' is declared at offset {offset}, but the previous member ends at {cursor}"
  | emptyArray uniform => s!"uniform '{uniform}' is an array of 0 elements"
  | memberOverflow uniform => s!"uniform '{uniform}' ends beyond the largest representable block"
  | blockOverflow size => s!"block size {size} cannot be rounded to the 16 byte block stride"
  | oversized needed declared =>
    s!"members need {needed} bytes, but the block is only {declared} bytes"

/-! ### Layout -/

/-- Fills the bytes from one offset up to another, if there are any. -/
def pad (start stop : Nat) : List Member :=
  if start < stop then [.padding start (stop - start)] else []

/-- Where a uniform ends that starts at its offset, if that is a word. -/
def Uniform.end? (u : Uniform) : Option Nat :=
  u.hostSize?.bind fun size => word? (u.offset + size)

/-- The members for some uniforms that follow one another, and where the last one ends. The cursor
is where the members so far end. -/
def placeUniforms (types : NameTable String) :
    Nat → List Uniform → Except LayoutFault (List Member × Nat)
  | cursor, []      => .ok ([], cursor)
  | cursor, u :: us =>
    if u.count = 0 then .error (.emptyArray u.name)
    else if u.offset < cursor then .error (.overlap u.name u.offset cursor)
    else
      match u.end? with
      | none      => .error (.memberOverflow u.name)
      | some next => do
        let (members, last) ← placeUniforms types next us
        let field := .field u.name u.offset (.ofUniformType types u.type) u.count
        return (pad cursor u.offset ++ field :: members, last)

/-- The packed C struct of a uniform block. -/
structure HostStruct where
  block : String
  slot : Nat
  members : List Member
  size : Nat
  deriving DecidableEq

namespace HostStruct

/-- Lays a block out at its offsets and fills it up to a multiple of the stride. -/
def ofBlock? (types : NameTable String) (b : Block) : Except LayoutFault HostStruct :=
  match b.roundedSize? with
  | none          => .error (.blockOverflow b.size)
  | some declared => do
    let (members, last) ← placeUniforms types 0 b.uniforms
    if declared < last then .error (.oversized last declared)
    else
      match roundUp? last blockStride with
      | none      => .error (.blockOverflow last)
      | some size => .ok ⟨b.name, b.slot, members ++ pad last size, size⟩

/-- The constant with the slot of the block. -/
def constant (qualifier : String) (s : HostStruct) : Constant :=
  ⟨Naming.slot qualifier s.block, s.slot⟩

/-- The slot constant and the declaration of the struct. -/
def lines (qualifier : String) (s : HostStruct) : List String :=
  let name := Naming.struct qualifier s.block
  [(s.constant qualifier).line,
    "#pragma pack(push,1)",
    s!"SOKOL_SHDC_ALIGN({blockStride}) typedef struct {name} \x7b"] ++
  s.members.map Member.line ++
  [s!"\x7d {name};",
    "#pragma pack(pop)"]

/-- One warning for each field without a type. -/
def warnings (s : HostStruct) : List Warning :=
  s.members.filterMap fun
    | .field name _ .unsupported _ => some (.unsupported s.block name)
    | _                            => none

end HostStruct

end ShaderHeader
