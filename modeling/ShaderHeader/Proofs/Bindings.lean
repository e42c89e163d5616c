import Mathlib.Tactic.Common
import ShaderHeader.Edition.Bindings
import ShaderHeader.Proofs.Check

/-!
# Bindings

What a resource can do to a slot table when it claims its slot, and what the resources of a source
do to the tables of images and blocks.
-/

namespace ShaderHeader

open Check

variable {α : Type} [Resource α]

namespace SlotTable

/-- The warning about a resource whose slot is held by another one, unless both have the same
name. -/
def shadowing (first r : α) : List Warning :=
  if Resource.name first = Resource.name r then []
  else [.shadowed (Resource.kind α) (Resource.name r) (Resource.slot r) (Resource.name first)]

/-- A resource whose claim succeeds either finds its slot taken, and then is left out, or finds both
its slot and its name free, and then is the last holder. -/
lemma claim_eq_ok_iff {t t' : SlotTable α} {r : α} :
    t.claim r = .ok t' ↔
      (∃ first, t.holder? (Resource.slot r) = some first ∧
        t' = ⟨t.holders, t.shadowed ++ shadowing first r⟩) ∨
      (t.holder? (Resource.slot r) = none ∧ t.named? (Resource.name r) = none ∧
        t' = ⟨t.holders ++ [r], t.shadowed⟩) := by
  rw [claim]
  cases hholder : t.holder? (Resource.slot r) with
  -- the slot is held: the resource is dropped, with a warning if its name differs
  | some first =>
    by_cases hname : Resource.name first = Resource.name r
    · simp only [hname, shadowing, if_true, List.append_nil, Option.some.injEq, exists_eq_left',
        Except.ok.injEq, reduceCtorEq, false_and, or_false]
      exact eq_comm
    · simp only [hname, shadowing, if_false, Option.some.injEq, exists_eq_left', Except.ok.injEq,
        reduceCtorEq, false_and, or_false]
      exact eq_comm
  -- the slot is free: the resource gets it unless its name is on another slot
  | none =>
    cases hnamed : t.named? (Resource.name r) with
    | some other => simp
    | none       => simp [eq_comm]

/-- A resource whose claim fails finds its slot free, but its name is held on another slot. -/
lemma claim_eq_error_iff {t : SlotTable α} {r : α} {fault : Fault} :
    t.claim r = .error fault ↔
      t.holder? (Resource.slot r) = none ∧ ∃ q, t.named? (Resource.name r) = some q ∧
        fault = .slotConflict (Resource.kind α) (Resource.name r) (Resource.slot q)
          (Resource.slot r) := by
  rw [claim]
  cases hholder : t.holder? (Resource.slot r) with
  | some first =>
    by_cases hname : Resource.name first = Resource.name r
    · simp [hname]
    · simp [hname]
  | none =>
    cases hnamed : t.named? (Resource.name r) with
    | some other => simp [eq_comm]
    | none       => simp

end SlotTable

namespace Bindings

variable {f : ShaderFile}

lemma addInterface_eq_ok_iff {b b' : Bindings} {i : Interface} :
    b.addInterface i = .ok b' ↔
      i.images.foldlM SlotTable.claim b.images = .ok b'.images ∧
        i.blocks.foldlM SlotTable.claim b.blocks = .ok b'.blocks := by
  obtain ⟨images, blocks⟩ := b'
  simp only [addInterface, bind_eq_ok_iff, pure_eq_ok_iff, Bindings.mk.injEq]
  constructor
  · rintro ⟨_, himages, _, hblocks, rfl, rfl⟩
    exact ⟨himages, hblocks⟩
  · rintro ⟨himages, hblocks⟩
    exact ⟨images, himages, blocks, hblocks, rfl, rfl⟩

lemma addSource_eq_ok_iff {b b' : Bindings} {s : Source} :
    addSource f b s = .ok b' ↔ b.addInterface s.interface = .ok b' :=
  mapError_eq_ok_iff

end Bindings

end ShaderHeader
