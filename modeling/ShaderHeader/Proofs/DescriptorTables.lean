import Mathlib.Data.List.FinRange
import ShaderHeader.Proofs.Layout
import ShaderHeader.Proofs.Locations

/-!
# Tables of descriptors

A table of a descriptor has the first resource at each slot and nothing for a resource that cannot
be described, so a resource could well be missing in it. In an edition none is: the resources of
every stage have slots of their own within the tables, and the size of every block can be rounded
up. A table then holds the resources of the stage, each of them once.
-/

namespace ShaderHeader

open Check

/-! ### Tables by slot -/

section Tables

variable {α β : Type} [Resource α] {rs : List α} {r : α} {slot : Nat} {describe? : α → Option β}

/-- Resources that have slots of their own within the runtime's table. -/
structure FitTable (rs : List α) : Prop where
  lt : ∀ r ∈ rs, Resource.slot r < (Resource.kind α).capacity
  nodup : (rs.map Resource.slot).Nodup

lemma FitTable.of_checkSlots (h : checkSlots [] rs = .ok ()) : FitTable rs := by
  obtain ⟨hslots, hnodup⟩ := checkSlots_eq_ok_iff.mp h
  exact ⟨fun r hr => (hslots r hr).1, hnodup⟩

/-- The entries of the first resources at the slots of a table. -/
def slotEntries (rs : List α) (describe? : α → Option β) :
    Vector (Option β) (Resource.kind α).capacity :=
  Vector.ofFn fun slot => (firstOn? rs slot).bind describe?

namespace FitTable

lemma firstOn?_eq_some_iff (h : FitTable rs) :
    firstOn? rs slot = some r ↔ r ∈ rs ∧ Resource.slot r = slot := by
  constructor
  · intro hr
    exact ⟨mem_of_firstOn? hr, slot_of_firstOn? hr⟩
  · rintro ⟨hr, rfl⟩
    exact Keys.find?_eq_some h.nodup hr

/-- A slot has an entry exactly if some resource has this slot and this entry. -/
lemma getElem?_slotEntries_iff (h : FitTable rs) {x : β} :
    (slotEntries rs describe?)[slot]? = some (some x) ↔
      ∃ r ∈ rs, Resource.slot r = slot ∧ describe? r = some x := by
  constructor
  · intro hx
    obtain ⟨hlt, hx⟩ := Vector.getElem?_eq_some_iff.mp hx
    rw [slotEntries, Vector.getElem_ofFn] at hx
    obtain ⟨r, hr, hentry⟩ := Option.bind_eq_some_iff.mp hx
    obtain ⟨hmem, hslot⟩ := h.firstOn?_eq_some_iff.mp hr
    exact ⟨r, hmem, hslot, hentry⟩
  · rintro ⟨r, hr, rfl, hentry⟩
    rw [Vector.getElem?_eq_getElem (h.lt r hr), slotEntries, Vector.getElem_ofFn,
      h.firstOn?_eq_some_iff.mpr ⟨hr, rfl⟩, Option.bind_some, hentry]

/-- The first resources at the slots of a table are all resources. -/
lemma filterMap_firstOn?_perm (h : FitTable rs) :
    ((List.finRange (Resource.kind α).capacity).filterMap fun slot : Fin _ =>
      firstOn? rs slot).Perm rs := by
  apply (List.perm_ext_iff_of_nodup ?_ h.nodup.of_map).mpr
  · intro r
    rw [List.mem_filterMap]
    constructor
    · rintro ⟨slot, -, hr⟩
      exact mem_of_firstOn? hr
    · intro hr
      exact ⟨⟨_, h.lt r hr⟩, List.mem_finRange _, h.firstOn?_eq_some_iff.mpr ⟨hr, rfl⟩⟩
  · refine (List.nodup_finRange _).filterMap ?_
    intro i j r hi hj
    exact Fin.ext ((slot_of_firstOn? hi).symm.trans (slot_of_firstOn? hj))

/-- The entries of a table are those of all resources. -/
lemma filterMap_slotEntries_perm (h : FitTable rs) (describe? : α → Option β) :
    ((slotEntries rs describe?).toList.filterMap id).Perm (rs.filterMap describe?) := by
  have hentries : (slotEntries rs describe?).toList.filterMap id =
      ((List.finRange (Resource.kind α).capacity).filterMap fun slot : Fin _ =>
        firstOn? rs slot).filterMap describe? := by
    rw [slotEntries, Vector.toList_ofFn, List.ofFn_eq_map, List.filterMap_map,
      List.filterMap_filterMap]
    rfl
  rw [hentries]
  exact h.filterMap_firstOn?_perm.filterMap describe?

/-- As many positions of a table are in use as there are resources that have an entry. -/
lemma countP_slotEntries (h : FitTable rs) {entry : α → β}
    (hentry : ∀ r ∈ rs, describe? r = some (entry r)) :
    (slotEntries rs describe?).toList.countP Option.isSome = rs.length := by
  have hlength := (h.filterMap_slotEntries_perm describe?).length_eq
  rw [List.filterMap_congr hentry, List.filterMap_eq_map', List.length_map,
    List.length_filterMap_eq_countP] at hlength
  exact hlength

end FitTable

end Tables

/-! ### What a descriptor shows -/

/-- The entry of a block, with its size rounded up to the stride. -/
def Block.entry (b : Block) : BlockEntry :=
  ⟨b.name, strideAbove b.size⟩

/-- The entry of an attribute. -/
def Attribute.entry (a : Attribute) : AttributeEntry :=
  ⟨a.name, a.semantic, a.semanticIndex⟩

/-- The tables of a stage hold the resources of an interface at their slots, each of them once. -/
structure StageDescriptor.Shows (s : StageDescriptor) (i : Interface) : Prop where
  block_iff : ∀ slot entry, s.blocks[slot]? = some (some entry) ↔
    ∃ b ∈ i.blocks, b.slot = slot ∧ b.entry = entry
  image_iff : ∀ slot entry, s.images[slot]? = some (some entry) ↔
    ∃ m ∈ i.images, m.slot = slot ∧ m.entry = entry
  count_blocks : s.blocks.toList.countP Option.isSome = i.blocks.length
  count_images : s.images.toList.countP Option.isSome = i.images.length

/-- The tables of a descriptor hold the resources of both stages of a program, and the inputs that
are used at their locations. -/
structure Descriptor.Shows (d : Descriptor) (p : LinkedProgram) : Prop where
  stages : ∀ stage, (d.stage stage).Shows (p.stage stage).source.interface
  attribute_iff : ∀ (location : Nat) (h : location < attributeCapacity) (entry : AttributeEntry),
    d.attributes[location] = some entry ↔
      p.vertex.source.interface.inputs[location].isUsed ∧
        p.vertex.source.interface.inputs[location].entry = entry

namespace StageDescriptor

/-- An interface that has been checked is shown as a whole. -/
lemma shows_ofLinked {types : NameTable String} {s : LinkedStage}
    (h : checkInterface types s.source.interface = .ok ()) (qualifier : String) (d : Dialect)
    (stage : Stage) : (ofLinked qualifier d stage s).Shows s.source.interface := by
  obtain ⟨hblocks, himages, hlayout⟩ := checkInterface_eq_ok_iff.mp h
  have hfitBlocks := FitTable.of_checkSlots hblocks
  have hfitImages := FitTable.of_checkSlots himages
  have hentry : ∀ b ∈ s.source.interface.blocks, b.entry? = some b.entry := by
    intro b hb
    obtain ⟨struct, hstruct⟩ := hlayout b hb
    rw [Block.entry?, (HostStruct.size_of_ofBlock? hstruct).1]
    rfl
  have hblockTable : (ofLinked qualifier d stage s).blocks =
      slotEntries s.source.interface.blocks Block.entry? := rfl
  have himageTable : (ofLinked qualifier d stage s).images =
      slotEntries s.source.interface.images fun m => some m.entry := by
    simp only [ofLinked, slotEntries, Option.map_eq_bind]
    rfl
  constructor
  · -- the tables hold what is on a slot, and as many entries as there are resources
    intro slot entry
    rw [hblockTable, hfitBlocks.getElem?_slotEntries_iff]
    refine exists_congr fun b => and_congr_right fun hb => ?_
    rw [hentry b hb, Option.some_inj]
    rfl
  · intro slot entry
    rw [himageTable, hfitImages.getElem?_slotEntries_iff]
    simp only [Option.some_inj]
    rfl
  · rw [hblockTable]
    exact hfitBlocks.countP_slotEntries hentry
  · rw [himageTable]
    exact hfitImages.countP_slotEntries fun _ _ => rfl

/-- The size of a block is that of the vectors as which it is passed on. -/
lemma Shows.size_eq {s : StageDescriptor} {i : Interface} (h : s.Shows i) {slot : Nat}
    {entry : BlockEntry} (hentry : s.blocks[slot]? = some (some entry)) :
    entry.size / 16 * 16 = entry.size := by
  obtain ⟨b, -, -, rfl⟩ := (h.block_iff slot entry).mp hentry
  exact Nat.div_mul_cancel (dvd_strideAbove b.size)

end StageDescriptor

namespace Edition

variable {f : ShaderFile} {cs : Compilations} {d : Dialect} {e : Edition}

lemma shows_ofLinked (h : Edition.check? f d cs = .ok e) {p : LinkedProgram}
    (hp : p ∈ e.programs) (qualifier : String) (d' : Dialect) :
    (Descriptor.ofLinked qualifier d' p).Shows p := by
  constructor
  · intro stage
    rw [Descriptor.stage_ofLinked]
    exact StageDescriptor.shows_ofLinked (checkInterface_of_mem_programs h hp stage) _ _ _
  · intro location hlocation entry
    rw [Descriptor.attributes_ofLinked, Attribute.entry?]
    split_ifs with hused
    · rw [Option.some_inj]
      exact (and_iff_right hused).symm
    · constructor
      · rintro ⟨⟩
      · exact fun hentry => absurd hentry.1 hused

/-- Every program of the file is described in an edition, and its tables show what its stages have:
blocks, with their sizes rounded up, and images at their slots, and the inputs that are used. What
is written as the size of a block is always a number of whole vectors. -/
theorem tables_show_program (h : Edition.check? f d cs = .ok e) :
    e.programs.map LinkedProgram.program = f.programs.values ∧
    ∀ p ∈ e.programs, (Descriptor.ofLinked f.qualifier d p).Shows p ∧
      ∀ (stage : Stage) (slot : Nat) (entry : BlockEntry),
        ((Descriptor.ofLinked f.qualifier d p).stage stage).blocks[slot]? = some (some entry) →
          entry.size / 16 * 16 = entry.size := by
  refine ⟨map_program_of_check? h, fun p hp => ?_⟩
  have hshows := shows_ofLinked h hp f.qualifier d
  exact ⟨hshows, fun stage _ _ hentry => (hshows.stages stage).size_eq hentry⟩

end Edition

namespace Sample

/-- The program of a small file, linked for a dialect without bytecode. -/
def quad : LinkedProgram where
  program := ⟨"quad", "vs", "fs", 30⟩
  vertex := ⟨⟨"vs", .stage .vertex, 1⟩, ⟨0, "void main() \x7b\n\x7d\n", vertex⟩, none⟩
  fragment := ⟨⟨"fs", .stage .fragment, 12⟩,
    ⟨1, "void main0() \x7b\x7d\n", fragment [diffuse, sky]⟩, none⟩

lemma exists_edition_of_quad :
    ∃ e, Edition.check? file .glsl330 compilations = .ok e ∧ e.programs = [quad] := by
  have hprograms : (Edition.check? file .glsl330 compilations).toOption.map Edition.programs =
      some [quad] := by decide +kernel
  exact exists_of_map_toOption hprograms

/-- The tables have its uniform block, both of its images and the second one of its inputs. -/
theorem tables_show_program_of_quad :
    ∃ e, Edition.check? file .glsl330 compilations = .ok e ∧ quad ∈ e.programs ∧
      (Descriptor.ofLinked "" .glsl330 quad).vertex.blocks[0]? = some (some ⟨"params", 16⟩) ∧
      (Descriptor.ofLinked "" .glsl330 quad).fragment.images[3]? = some (some ⟨"sky", .cube⟩) ∧
      (Descriptor.ofLinked "" .glsl330 quad).fragment.images.toList.countP Option.isSome = 2 ∧
      (Descriptor.ofLinked "" .glsl330 quad).attributes[2] = some ⟨"uv", "TEXCOORD", 1⟩ := by
  obtain ⟨e, he, hprograms⟩ := exists_edition_of_quad
  have hquad : quad ∈ e.programs := hprograms ▸ List.mem_singleton_self quad
  obtain ⟨-, htables⟩ := Edition.tables_show_program he
  obtain ⟨⟨hstages, hattributes⟩, -⟩ := htables quad hquad
  refine ⟨e, he, hquad, ?_, ?_, (hstages .fragment).count_images, ?_⟩
  · exact ((hstages .vertex).block_iff 0 ⟨"params", 16⟩).mpr ⟨_, List.mem_cons_self, rfl, rfl⟩
  · exact ((hstages .fragment).image_iff 3 ⟨"sky", .cube⟩).mpr
      ⟨sky, List.mem_cons_of_mem _ List.mem_cons_self, rfl, rfl⟩
  · exact (hattributes 2 (by decide) _).mpr ⟨by decide, rfl⟩

end Sample

end ShaderHeader
