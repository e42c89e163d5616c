import ShaderHeader.Edition

/-!
# Agreement of editions

Constants and structs are declared once for all dialects, so every edition has to have the same
interface as the first one: the same locations, the same blocks and the same images in every stage
of every program, and the same bindings. The order within a stage does not matter, and neither do
names of attributes.
-/

namespace ShaderHeader

/-! ### Order by slot -/

section Sorting

variable {α : Type} (slot : α → Nat)

/-- Orders by slot and keeps the order of what has the same slot. -/
def sortBySlot (as : List α) : List α :=
  as.mergeSort fun a b => slot a ≤ slot b

theorem perm_sortBySlot (as : List α) : (sortBySlot slot as).Perm as :=
  List.mergeSort_perm ..

end Sorting

/-! ### What has to agree -/

/-- What constants, structs and descriptors show of a block. -/
structure BlockProfile where
  slot : Nat
  name : String
  size : Option Nat
  uniforms : List Uniform
  deriving DecidableEq

def Block.profile (b : Block) : BlockProfile :=
  ⟨b.slot, b.name, b.roundedSize?, b.uniforms⟩

/-- The profiles of some blocks, by slot. -/
def blockProfiles (bs : List Block) : List BlockProfile :=
  sortBySlot BlockProfile.slot (bs.map Block.profile)

/-- What constants, structs and descriptors show of a stage. -/
structure InterfaceProfile where
  locations : List Nat
  blocks : List BlockProfile
  images : List Image
  deriving DecidableEq

/-- The profile of a stage, by slot. -/
def Interface.profile (i : Interface) : InterfaceProfile :=
  ⟨i.inputs.toList.filterMap Attribute.slot, blockProfiles i.blocks,
    sortBySlot Image.slot i.images⟩

/-! ### The check -/

/-- The stage of a program has the same profile in both editions, of the dialects `d` and `e`. -/
def checkStageAgreement (f : ShaderFile) (d e : Dialect) (p q : LinkedProgram) (stage : Stage) :
    Except Failure Unit :=
  if (p.stage stage).source.interface.profile = (q.stage stage).source.interface.profile then .ok ()
  else .error (f.failure p.program.line (.differingInterface stage p.program.name d e))

/-- Both stages of a program agree. -/
def checkProgramAgreement (f : ShaderFile) (d e : Dialect) (pair : LinkedProgram × LinkedProgram) :
    Except Failure Unit := do
  checkStageAgreement f d e pair.1 pair.2 .vertex
  checkStageAgreement f d e pair.1 pair.2 .fragment

/-- The same blocks and images hold the same slots. -/
def Bindings.agree (b c : Bindings) : Bool :=
  blockProfiles b.blocks.holders = blockProfiles c.blocks.holders ∧
    sortBySlot Image.slot b.images.holders = sortBySlot Image.slot c.images.holders

/-- Another edition agrees with the first one. -/
def Edition.checkAgreement (f : ShaderFile) (first other : Edition) : Except Failure Unit := do
  (first.programs.zip other.programs).forM
    (checkProgramAgreement f first.dialect other.dialect)
  if first.bindings.agree other.bindings then return ()
  else throw (f.failure 0 (.differingResources first.dialect other.dialect))

end ShaderHeader
