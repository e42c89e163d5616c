import ShaderHeader.Shader.Uniform

/-!
# Stage interfaces

The interface of a compiled stage is everything outside the stage that it refers to: attributes that
come in and go out, uniform blocks and images. Attributes stand in tables of fixed size whose
positions are locations; blocks and images are listed in the order in which they were found.
-/

namespace ShaderHeader

/-- The two stages of a program. -/
inductive Stage
  | vertex
  | fragment
  deriving DecidableEq

namespace Stage

/-- The stage's name in full. -/
def name : Stage → String
  | vertex   => "vertex"
  | fragment => "fragment"

/-- The stage's name in short. -/
def abbreviation : Stage → String
  | vertex   => "vs"
  | fragment => "fs"

end Stage

/-! ### Resources -/

/-- What an image consists of: one flat picture, the sides of a cube, a volume or several
pictures. -/
inductive ImageType
  | flat
  | cube
  | volume
  | array
  deriving DecidableEq

/-- The name of an image type in the runtime. -/
def ImageType.constant : ImageType → String
  | flat   => "SG_IMAGETYPE_2D"
  | cube   => "SG_IMAGETYPE_CUBE"
  | volume => "SG_IMAGETYPE_3D"
  | array  => "SG_IMAGETYPE_ARRAY"

/-- An image that is bound to a slot of a stage. -/
structure Image where
  name : String
  slot : Nat
  type : ImageType
  deriving DecidableEq

/-- The two kinds of things that are bound to a slot of a stage. -/
inductive ResourceKind
  | block
  | image
  deriving DecidableEq

namespace ResourceKind

/-- What messages call a resource of the kind. -/
def noun : ResourceKind → String
  | block => "uniform block"
  | image => "image"

/-- How many slots of the kind the runtime's tables have for one stage. -/
def capacity : ResourceKind → Nat
  | block => 4
  | image => 12

end ResourceKind

/-- What can be bound to a slot: a uniform block or an image. -/
class Resource (α : Type) where
  kind : ResourceKind
  name : α → String
  slot : α → Nat

instance : Resource Block := ⟨.block, Block.name, Block.slot⟩

instance : Resource Image := ⟨.image, Image.name, Image.slot⟩

/-! ### Attributes -/

/-- How many attributes the runtime's tables have. -/
def attributeCapacity : Nat := 16

/-- A stage input or output. One that is unused or was optimised away has no slot. -/
structure Attribute where
  slot : Option Nat := none
  name : String := ""
  semantic : String := ""
  semanticIndex : Nat := 0
  deriving DecidableEq

/-- Whether an attribute has a slot. -/
def Attribute.isUsed (a : Attribute) : Bool :=
  a.slot.isSome

/-- Attributes by location. -/
abbrev AttributeTable := Vector Attribute attributeCapacity

namespace AttributeTable

/-- The table in which no location is used. -/
def empty : AttributeTable :=
  Vector.replicate attributeCapacity {}

/-- Puts an attribute at the location that its slot names, if there is one. -/
def place (t : AttributeTable) (a : Attribute) : AttributeTable :=
  match a.slot with
  | some slot => t.setIfInBounds slot a
  | none      => t

@[simp] theorem getElem_empty {i : Nat} (h : i < attributeCapacity) : empty[i] = {} := by
  simp [empty]

theorem getElem_place (t : AttributeTable) (a : Attribute) {i : Nat} (h : i < attributeCapacity) :
    (t.place a)[i] = if a.slot = some i then a else t[i] := by
  rw [place]
  split
  · next slot hs => simp [hs, Vector.getElem_setIfInBounds]
  · next hs => simp [hs]

/-- The used attributes, by location. -/
def used (t : AttributeTable) : List Attribute :=
  t.toList.filter Attribute.isUsed

end AttributeTable

/-! ### Interfaces -/

/-- What one compiled stage refers to, and the name of its entry function. -/
structure Interface where
  stage : Stage
  entry : String
  inputs : AttributeTable := .empty
  outputs : AttributeTable := .empty
  blocks : List Block := []
  images : List Image := []
  deriving DecidableEq

namespace Interface

/-- Adds an input at the location of its slot. -/
def addInput (i : Interface) (a : Attribute) : Interface :=
  { i with inputs := i.inputs.place a }

/-- Adds an output at the location of its slot. -/
def addOutput (i : Interface) (a : Attribute) : Interface :=
  { i with outputs := i.outputs.place a }

/-- Adds a uniform block after those that are there. -/
def addBlock (i : Interface) (b : Block) : Interface :=
  { i with blocks := i.blocks ++ [b] }

/-- Adds an image after those that are there. -/
def addImage (i : Interface) (m : Image) : Interface :=
  { i with images := i.images ++ [m] }

/-- The first block at a slot. -/
def block? (i : Interface) (slot : Nat) : Option Block :=
  i.blocks.find? fun b => b.slot = slot

/-- The first image at a slot. -/
def image? (i : Interface) (slot : Nat) : Option Image :=
  i.images.find? fun m => m.slot = slot

end Interface

end ShaderHeader
