import ShaderHeader.Proofs.Bindings
import ShaderHeader.Proofs.Keys

/-!
# Merging by slot

Resources claim their slots one after the other. The first one on a slot holds it for good, so the
table that they end up with is known from the list of them alone (`SlotTable.Merges`): who holds a
slot, and which resources have lost theirs.
-/

namespace ShaderHeader

open Check

variable {α : Type} [Resource α] {rs qs : List α} {q r : α} {slot : Nat}

/-! ### First resources -/

/-- The first of some resources on a slot. -/
def firstOn? (rs : List α) (slot : Nat) : Option α :=
  rs.find? fun r => Resource.slot r = slot

/-- A resource comes first on its slot. -/
def IsFirst (rs : List α) (r : α) : Prop :=
  firstOn? rs (Resource.slot r) = some r

lemma firstOn?_append (rs qs : List α) (slot : Nat) :
    firstOn? (rs ++ qs) slot = (firstOn? rs slot).or (firstOn? qs slot) :=
  List.find?_append

lemma firstOn?_singleton (r : α) (slot : Nat) :
    firstOn? [r] slot = if Resource.slot r = slot then some r else none := by
  simp [firstOn?, List.find?_singleton]

lemma mem_of_firstOn? (h : firstOn? rs slot = some r) : r ∈ rs :=
  List.mem_of_find?_eq_some h

lemma slot_of_firstOn? (h : firstOn? rs slot = some r) : Resource.slot r = slot := by
  simpa using List.find?_some h

lemma exists_firstOn? (hr : r ∈ rs) : ∃ q, firstOn? rs (Resource.slot r) = some q := by
  rw [← Option.isSome_iff_exists, firstOn?, List.find?_isSome]
  exact ⟨r, hr, by simp⟩

/-- Who comes first on the slot of a resource is settled once the resource is there. -/
lemma firstOn?_append_of_mem (hr : r ∈ rs) (qs : List α) :
    firstOn? (rs ++ qs) (Resource.slot r) = firstOn? rs (Resource.slot r) := by
  obtain ⟨q, hq⟩ := exists_firstOn? hr
  rw [firstOn?_append, hq, Option.some_or]

lemma isFirst_of_firstOn? (h : firstOn? rs slot = some r) : IsFirst rs r := by
  rw [IsFirst, slot_of_firstOn? h, h]

lemma IsFirst.mem (h : IsFirst rs r) : r ∈ rs :=
  mem_of_firstOn? h

lemma IsFirst.append (h : IsFirst rs r) (qs : List α) : IsFirst (rs ++ qs) r := by
  rw [IsFirst, firstOn?_append_of_mem h.mem, h]

namespace SlotTable

variable {t t' : SlotTable α}

/-! ### The merged table -/

/-- The warning about a resource whose slot another one came first on, under another name. -/
def losses (rs : List α) (r : α) : List Warning :=
  match firstOn? rs (Resource.slot r) with
  | some first => shadowing first r
  | none       => []

/-- A table after some resources have claimed their slots. -/
structure Merges (t : SlotTable α) (rs : List α) : Prop where
  /-- A slot is held by the first resource on it. -/
  holder?_eq : ∀ slot, t.holder? slot = firstOn? rs slot
  nodup_slots : (t.holders.map Resource.slot).Nodup
  nodup_names : (t.holders.map Resource.name).Nodup
  /-- Every resource is reported that has lost its slot to another name. -/
  shadowed_eq : t.shadowed = rs.flatMap (losses rs)

lemma merges_nil : ({} : SlotTable α).Merges [] :=
  ⟨fun _ => rfl, .nil, .nil, rfl⟩

lemma losses_append_of_mem (hr : r ∈ rs) (qs : List α) : losses (rs ++ qs) r = losses rs r := by
  simp only [losses, firstOn?_append_of_mem hr]

lemma flatMap_losses_concat (rs : List α) (r : α) :
    (rs ++ [r]).flatMap (losses (rs ++ [r])) = rs.flatMap (losses rs) ++ losses (rs ++ [r]) r := by
  rw [List.flatMap_append, List.flatMap_singleton,
    List.flatMap_congr fun q hq => losses_append_of_mem hq [r]]

/-- The holders are the resources that come first on their slots. -/
lemma Merges.mem_holders_iff (h : t.Merges rs) : r ∈ t.holders ↔ IsFirst rs r := by
  rw [IsFirst, ← h.holder?_eq]
  exact ⟨Keys.find?_eq_some h.nodup_slots, List.mem_of_find?_eq_some⟩

/-- A name is held by the resource of this name that comes first on its slot. -/
lemma Merges.named?_eq_some_iff (h : t.Merges rs) {name : String} :
    t.named? name = some r ↔ IsFirst rs r ∧ Resource.name r = name := by
  rw [← h.mem_holders_iff]
  constructor
  · intro hr
    exact ⟨List.mem_of_find?_eq_some hr, by simpa using List.find?_some hr⟩
  · rintro ⟨hr, rfl⟩
    exact Keys.find?_eq_some h.nodup_names hr

/-- One more claim. -/
lemma Merges.claim (h : t.Merges rs) (hclaim : t.claim r = .ok t') : t'.Merges (rs ++ [r]) := by
  rcases claim_eq_ok_iff.mp hclaim with ⟨first, hfirst, rfl⟩ | ⟨hslot, hname, rfl⟩
  · -- the slot is taken: nothing changes but for the warning
    have hfirst' : firstOn? rs (Resource.slot r) = some first := by rw [← h.holder?_eq, hfirst]
    refine ⟨fun slot => ?_, h.nodup_slots, h.nodup_names, ?_⟩
    · change t.holder? slot = _
      rw [h.holder?_eq, firstOn?_append, firstOn?_singleton]
      split_ifs with heq
      · rw [← heq, hfirst', Option.some_or]
      · rw [Option.or_none]
    · have hlost : losses (rs ++ [r]) r = shadowing first r := by
        simp only [losses, firstOn?_append, hfirst', Option.some_or]
      change t.shadowed ++ shadowing first r = _
      rw [flatMap_losses_concat, hlost, h.shadowed_eq]
  · -- the slot and the name are free: the resource is a holder from now on
    have hfree : firstOn? rs (Resource.slot r) = none := by rw [← h.holder?_eq, hslot]
    refine ⟨fun slot => ?_, ?_, ?_, ?_⟩
    · change firstOn? (t.holders ++ [r]) slot = _
      rw [firstOn?_append, firstOn?_append]
      exact congrArg (Option.or · _) (h.holder?_eq slot)
    · rw [List.map_append, List.map_singleton, ← List.concat_eq_append]
      exact h.nodup_slots.concat (Keys.notMem_map_of_find? hslot)
    · rw [List.map_append, List.map_singleton, ← List.concat_eq_append]
      exact h.nodup_names.concat (Keys.notMem_map_of_find? hname)
    · -- it is the first one on its slot, so nothing is lost
      have hkept : losses (rs ++ [r]) r = [] := by
        simp [losses, firstOn?_append, firstOn?_singleton, hfree, shadowing]
      change t.shadowed = _
      rw [flatMap_losses_concat, hkept, List.append_nil, h.shadowed_eq]

/-- Any number of further claims. -/
lemma Merges.foldlM_claim (h : t.Merges rs) (hclaims : qs.foldlM SlotTable.claim t = .ok t') :
    t'.Merges (rs ++ qs) :=
  keeps_of_foldlM_eq_ok (P := fun rs t => t.Merges rs) (fun hrs => hrs.claim) h hclaims

/-- The slot of every resource is held, and if the holder has another name then this is reported. -/
lemma Merges.exists_holder (h : t.Merges rs) (hr : r ∈ rs) :
    ∃ first ∈ t.holders, firstOn? rs (Resource.slot r) = some first ∧
      (Resource.name first = Resource.name r ∨
        .shadowed (Resource.kind α) (Resource.name r) (Resource.slot r) (Resource.name first) ∈
          t.shadowed) := by
  obtain ⟨first, hfirst⟩ := exists_firstOn? hr
  refine ⟨first, h.mem_holders_iff.mpr (isFirst_of_firstOn? hfirst), hfirst, ?_⟩
  by_cases hname : Resource.name first = Resource.name r
  · exact .inl hname
  · refine .inr (h.shadowed_eq ▸ List.mem_flatMap.mpr ⟨r, hr, ?_⟩)
    simp [losses, hfirst, shadowing, hname]

end SlotTable

/-! ### Compilations -/

namespace Compilation

variable (c : Compilation)

/-- All images of a compilation, source by source. -/
def images : List Image :=
  c.sources.flatMap fun s => s.interface.images

/-- All uniform blocks of a compilation, source by source. -/
def blocks : List Block :=
  c.sources.flatMap fun s => s.interface.blocks

end Compilation

namespace Bindings

variable {f : ShaderFile} {c : Compilation} {b b' : Bindings}

/-- Images and blocks claim their slots apart from each other. -/
lemma foldlM_addSource_eq_ok_iff {ss : List Source} :
    ss.foldlM (addSource f) b = .ok b' ↔
      (ss.flatMap fun s => s.interface.images).foldlM SlotTable.claim b.images = .ok b'.images ∧
        (ss.flatMap fun s => s.interface.blocks).foldlM SlotTable.claim b.blocks =
          .ok b'.blocks := by
  induction ss generalizing b with
  | nil =>
    obtain ⟨images, blocks⟩ := b
    obtain ⟨images', blocks'⟩ := b'
    simp
  | cons s ss ih =>
    simp only [List.foldlM_cons, List.flatMap_cons, List.foldlM_append, bind_eq_ok_iff, ih,
      addSource_eq_ok_iff, addInterface_eq_ok_iff]
    constructor
    · rintro ⟨b₁, ⟨himages, hblocks⟩, himages', hblocks'⟩
      exact ⟨⟨_, himages, himages'⟩, _, hblocks, hblocks'⟩
    · rintro ⟨⟨images, himages, himages'⟩, blocks, hblocks, hblocks'⟩
      exact ⟨⟨images, blocks⟩, ⟨himages, hblocks⟩, himages', hblocks'⟩

lemma ofCompilation?_eq_ok_iff :
    ofCompilation? f c = .ok b ↔
      c.images.foldlM SlotTable.claim {} = .ok b.images ∧
        c.blocks.foldlM SlotTable.claim {} = .ok b.blocks :=
  foldlM_addSource_eq_ok_iff

lemma merges_images (h : ofCompilation? f c = .ok b) : b.images.Merges c.images :=
  SlotTable.merges_nil.foldlM_claim (ofCompilation?_eq_ok_iff.mp h).1

lemma merges_blocks (h : ofCompilation? f c = .ok b) : b.blocks.Merges c.blocks :=
  SlotTable.merges_nil.foldlM_claim (ofCompilation?_eq_ok_iff.mp h).2

/-- Every block that holds a slot belongs to a source. -/
lemma exists_source_of_mem_blocks (h : ofCompilation? f c = .ok b) {r : Block}
    (hr : r ∈ b.blocks.holders) : ∃ s ∈ c.sources, r ∈ s.interface.blocks :=
  List.mem_flatMap.mp ((merges_blocks h).mem_holders_iff.mp hr).mem

end Bindings

end ShaderHeader
