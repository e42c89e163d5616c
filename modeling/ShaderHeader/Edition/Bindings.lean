import ShaderHeader.Failure
import ShaderHeader.Shader.Compilation

/-!
# Bindings

The stages of a shader file share their bind slots: one constant stands for one slot of one kind of
resource. The sources of a compilation are gone through in order. A resource that finds its slot
free holds it from then on, provided that its name does not hold another slot. A resource that
finds its slot taken is left out, with a warning if the holder has another name.
-/

namespace ShaderHeader

variable {α : Type} [Resource α]

/-- The holders of the slots of one kind, in order of first appearance. -/
structure SlotTable (α : Type) where
  holders : List α := []
  shadowed : List Warning := []
  deriving DecidableEq

namespace SlotTable

/-- The holder of a slot. -/
def holder? (t : SlotTable α) (slot : Nat) : Option α :=
  t.holders.find? fun r => Resource.slot r = slot

/-- The holder with a name. -/
def named? (t : SlotTable α) (name : String) : Option α :=
  t.holders.find? fun r => Resource.name r = name

/-- Lets a resource claim its slot. -/
def claim (t : SlotTable α) (r : α) : Except Fault (SlotTable α) :=
  let name := Resource.name r
  let slot := Resource.slot r
  match t.holder? slot with
  | some first =>
    if Resource.name first = name then .ok t
    else
      let warning := .shadowed (Resource.kind α) name slot (Resource.name first)
      .ok { t with shadowed := t.shadowed ++ [warning] }
  | none =>
    match t.named? name with
    | some other => .error (.slotConflict (Resource.kind α) name (Resource.slot other) slot)
    | none       => .ok { t with holders := t.holders ++ [r] }

end SlotTable

/-- The resources that are declared for all stages together. -/
structure Bindings where
  images : SlotTable Image := {}
  blocks : SlotTable Block := {}
  deriving DecidableEq

namespace Bindings

/-- One warning for each resource whose slot is held under another name, images first. -/
def shadowed (b : Bindings) : List Warning :=
  b.images.shadowed ++ b.blocks.shadowed

/-- Lets the resources of a stage claim their slots, images first. -/
def addInterface (b : Bindings) (i : Interface) : Except Fault Bindings := do
  let images ← i.images.foldlM SlotTable.claim b.images
  let blocks ← i.blocks.foldlM SlotTable.claim b.blocks
  return ⟨images, blocks⟩

/-- Lets the resources of a source claim their slots. A failure is reported at the line of the
source's snippet. -/
def addSource (f : ShaderFile) (b : Bindings) (s : Source) : Except Failure Bindings :=
  (b.addInterface s.interface).mapError (f.failure (f.snippetLine s.snippet))

/-- The bindings of a compilation. -/
def ofCompilation? (f : ShaderFile) (c : Compilation) : Except Failure Bindings :=
  c.sources.foldlM (addSource f) {}

end Bindings

end ShaderHeader
