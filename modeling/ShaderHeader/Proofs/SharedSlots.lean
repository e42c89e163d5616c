import ShaderHeader.Proofs.Agreement
import ShaderHeader.Proofs.Constants
import ShaderHeader.Proofs.Layout
import ShaderHeader.Proofs.SlotMerge

/-!
# Shared slots

The constants of a header are those of its first edition, but they stand for the slots of all
editions. Editions agree stage by stage, so whatever a stage has on a slot is found on this slot in
the first edition as well, and there it has a constant of its own unless it has lost the slot to
another name.
-/

namespace ShaderHeader

open Check

/-! ### Constants of slots -/

/-- A slot has one constant, which either has the name that is asked for or comes with a warning:
that this name shares the slot with the one that is declared. -/
def DeclaresSlot (qualifier : String) (ks : List Constant) (ws : List Warning)
    (kind : ResourceKind) (name : String) (slot : Nat) : Prop :=
  ∃ first, ks.filter (fun k => k.value = slot) = [⟨Naming.slot qualifier first, slot⟩] ∧
    (first = name ∨ ∃ w ∈ ws, w.declaration qualifier = Naming.slot qualifier first ∧
      w.message =
        s!"{kind.noun} '{name}' shares bind slot {slot} with '{first}', only '{first}' is declared")

lemma DeclaresSlot.mono {qualifier name : String} {ks : List Constant} {ws ws' : List Warning}
    {kind : ResourceKind} {slot : Nat} (h : DeclaresSlot qualifier ks ws kind name slot)
    (hws : ws ⊆ ws') : DeclaresSlot qualifier ks ws' kind name slot := by
  obtain ⟨first, hconstant, rfl | ⟨w, hw, hreport⟩⟩ := h
  · exact ⟨_, hconstant, .inl rfl⟩
  · exact ⟨first, hconstant, .inr ⟨w, hws hw, hreport⟩⟩

/-- The constants of the holders are constants for the slots of all resources. -/
lemma SlotTable.Merges.declaresSlot {α : Type} [Resource α] {t : SlotTable α} {rs : List α}
    (h : t.Merges rs) (qualifier : String) {r : α} (hr : r ∈ rs) :
    DeclaresSlot qualifier (t.holders.map (slotConstant qualifier)) t.shadowed
      (Resource.kind α) (Resource.name r) (Resource.slot r) := by
  obtain ⟨first, hfirst, hslot, hreport⟩ := h.exists_holder hr
  refine ⟨Resource.name first, ?_, hreport.imp_right fun hw => ⟨_, hw, rfl, rfl⟩⟩
  have hfilter := Keys.filter_eq_singleton h.nodup_slots hfirst
  rw [← slot_of_firstOn? hslot, List.filter_map]
  exact congrArg (List.map (slotConstant qualifier)) hfilter

namespace Declarations

variable {f : ShaderFile} {e : Edition} {ds : Declarations}

/-- The constants of structs are those of the blocks that hold a slot. -/
lemma blocks_eq (h : ofEdition? f e = .ok ds) :
    ds.blocks = e.bindings.blocks.holders.map (slotConstant f.qualifier) := by
  obtain ⟨hqualifier, -, -, hstructs⟩ := ofEdition?_eq_ok_iff.mp h
  rw [blocks, hqualifier]
  refine (map_eq_of_forall₂ hstructs fun b s hs => ?_).symm
  obtain ⟨hblock, hslot⟩ := HostStruct.block_slot_of_ofBlock? hs
  rw [HostStruct.constant, hblock, hslot]
  rfl

lemma line_mem_lines {k : Constant} (h : k ∈ ds.constants) : k.line ∈ ds.lines := by
  simp only [constants, blocks, List.mem_append, List.mem_map] at h
  simp only [lines, List.mem_append, List.mem_map, List.mem_flatMap]
  obtain (hk | hk) | ⟨s, hs, rfl⟩ := h
  · exact .inl (.inl (.inr ⟨k, hk, rfl⟩))
  · exact .inl (.inr ⟨k, hk, rfl⟩)
  · exact .inr ⟨s, hs, List.mem_cons_self⟩

end Declarations

/-- Every constant of the declarations is defined in the header. -/
lemma Header.line_mem_lines {h : Header} {s : Opening} (hs : s ∈ h.opening) {k : Constant}
    (hk : k ∈ s.declarations.constants) : k.line ∈ h.lines := by
  have hline : k.line ∈ s.lines := by
    simp only [Opening.lines, List.mem_append]
    exact .inl (.inr (Declarations.line_mem_lines hk))
  simp only [lines, List.mem_append, List.mem_flatMap]
  exact .inl (.inl (.inl (.inr ⟨s, Option.mem_toList.mpr hs, hline⟩)))

/-! ### Resources of the first edition -/

namespace Interface

variable {i j : Interface}

lemma mem_images_of_profile_eq (h : i.profile = j.profile) {m : Image} (hm : m ∈ i.images) :
    m ∈ j.images := by
  have himages : sortBySlot Image.slot i.images = sortBySlot Image.slot j.images :=
    congrArg InterfaceProfile.images h
  rw [← (perm_sortBySlot Image.slot i.images).mem_iff, himages] at hm
  exact (perm_sortBySlot Image.slot j.images).mem_iff.mp hm

lemma exists_block_of_profile_eq (h : i.profile = j.profile) {b : Block} (hb : b ∈ i.blocks) :
    ∃ b' ∈ j.blocks, b'.profile = b.profile := by
  have hblocks : blockProfiles i.blocks = blockProfiles j.blocks :=
    congrArg InterfaceProfile.blocks h
  have hmem := List.mem_map_of_mem (f := Block.profile) hb
  rw [← (perm_sortBySlot BlockProfile.slot _).mem_iff, ← blockProfiles, hblocks, blockProfiles,
    (perm_sortBySlot BlockProfile.slot _).mem_iff] at hmem
  exact List.mem_map.mp hmem

end Interface

namespace Header.MadeFrom

variable {f : ShaderFile} {cs : Compilations} {o : Options} {h : Header} {es : List Edition}
  {e first : Edition} {p : LinkedProgram} {stage : Stage}

/-- A stage has the same profile in the compilation of every other edition. -/
lemma exists_source (hmade : MadeFrom f cs o h es) (he : e ∈ es) (hfirst : first ∈ es)
    (hp : p ∈ e.programs) (stage : Stage) :
    ∃ s ∈ first.compilation.sources,
      (p.stage stage).source.interface.profile = s.interface.profile := by
  obtain ⟨q, hq, -, hprofile⟩ := hmade.exists_counterpart he hfirst hp
  obtain ⟨d, -, hd⟩ := hmade.exists_check? hfirst
  refine ⟨_, Edition.source_mem_of_mem_programs hd hq stage, ?_⟩
  cases stage with
  | vertex   => exact (congrArg Prod.fst hprofile).symm
  | fragment => exact (congrArg Prod.snd hprofile).symm

/-- The images of every stage are in the compilation of every other edition. -/
lemma mem_images (hmade : MadeFrom f cs o h es) (he : e ∈ es) (hfirst : first ∈ es)
    (hp : p ∈ e.programs) {m : Image} (hm : m ∈ (p.stage stage).source.interface.images) :
    m ∈ first.compilation.images := by
  obtain ⟨s, hs, hprofile⟩ := hmade.exists_source he hfirst hp stage
  exact List.mem_flatMap.mpr ⟨s, hs, Interface.mem_images_of_profile_eq hprofile hm⟩

/-- The blocks of every stage have their like in the compilation of every other edition. -/
lemma exists_block_profile_eq (hmade : MadeFrom f cs o h es) (he : e ∈ es) (hfirst : first ∈ es)
    (hp : p ∈ e.programs) {b : Block} (hb : b ∈ (p.stage stage).source.interface.blocks) :
    ∃ b' ∈ first.compilation.blocks, b'.profile = b.profile := by
  obtain ⟨s, hs, hprofile⟩ := hmade.exists_source he hfirst hp stage
  obtain ⟨b', hb', heq⟩ := Interface.exists_block_of_profile_eq hprofile hb
  exact ⟨b', List.mem_flatMap.mpr ⟨s, hs, hb'⟩, heq⟩

end Header.MadeFrom

/-! ### Slots of all dialects -/

/-- Whatever a stage of a program has on a slot, for any dialect, the header declares one constant
of this kind for the slot, and a resource that has to make do with the constant of another name is
reported. The constants of all kinds are just those that lines of the text define. -/
theorem Header.slots_declared {f : ShaderFile} {cs : Compilations} {o : Options} {h : Header}
    (hmake : make? f cs o = .ok h) {d : Dialect} (hd : d ∈ o.dialects.toList) :
    ∃ e, Edition.check? f d cs = .ok e ∧ Section.ofEdition f e o.guarded ∈ h.sections ∧
      e.programs.map LinkedProgram.program = f.programs.values ∧
      ∃ s ∈ h.opening, (∀ k ∈ s.declarations.constants, k.line ∈ h.lines) ∧
        s.declarations.lines <:+: h.lines ∧
        s.declarations.lines.filter definesConstant = (s.declarations.locations ++
          s.declarations.images ++ s.declarations.blocks).map Constant.line ∧
        ∀ p ∈ e.programs, ∀ stage,
          (∀ m ∈ (p.stage stage).source.interface.images,
            DeclaresSlot f.qualifier s.declarations.images h.warnings .image m.name m.slot) ∧
          ∀ b ∈ (p.stage stage).source.interface.blocks,
            DeclaresSlot f.qualifier s.declarations.blocks h.warnings .block b.name b.slot := by
  obtain ⟨es, hmade⟩ := exists_madeFrom hmake
  obtain ⟨e, he, hcheck⟩ := hmade.exists_edition hd
  obtain ⟨first, hfirst, ⟨d', -, hcheck'⟩, s, hs, hdeclarations, hwarnings⟩ :=
    hmade.exists_first (List.ne_nil_of_mem he)
  obtain ⟨-, -, -, -, -, -, hbindings⟩ := Edition.check?_eq_ok_iff.mp hcheck'
  obtain ⟨-, -, himages, -⟩ := Declarations.ofEdition?_eq_ok_iff.mp hdeclarations
  have hblocks := Declarations.blocks_eq hdeclarations
  have hshadowed : first.bindings.shadowed ⊆ h.warnings :=
    hwarnings ▸ List.subset_append_left ..
  refine ⟨e, hcheck, hmade.sections ▸ List.mem_map_of_mem he, Edition.map_program_of_check? hcheck,
    s, hs, fun k hk => line_mem_lines hs hk, declarations_infix_lines hs,
    Declarations.filter_lines hdeclarations, ?_⟩
  intro p hp stage
  constructor
  · -- agreement leaves images as they are
    intro m hm
    rw [himages]
    exact ((Bindings.merges_images hbindings).declaresSlot f.qualifier
      (hmade.mem_images he hfirst hp hm)).mono
        (List.Subset.trans (List.subset_append_left ..) hshadowed)
  · -- of a block, it leaves the name and the slot
    intro b hb
    obtain ⟨b', hb', hprofile⟩ := hmade.exists_block_profile_eq he hfirst hp hb
    obtain ⟨hslot, hname, -, -⟩ := BlockProfile.mk.inj hprofile
    rw [hblocks, ← hslot, ← hname]
    exact ((Bindings.merges_blocks hbindings).declaresSlot f.qualifier hb').mono
      (List.Subset.trans (List.subset_append_right ..) hshadowed)

/-! ### Two programs on one slot -/

namespace Sample

/-- A file with two programs that share their vertex stage. -/
def pairFile : ShaderFile :=
  ({ path := "quad.glsl" } : ShaderFile)
    |>.addSnippet ⟨"vs", .stage .vertex, 1⟩
    |>.addSnippet ⟨"fs_a", .stage .fragment, 12⟩
    |>.addSnippet ⟨"fs_b", .stage .fragment, 23⟩
    |>.addProgram ⟨"a", "vs", "fs_a", 30⟩
    |>.addProgram ⟨"b", "vs", "fs_b", 31⟩

/-- A compilation of the file, without attributes. -/
def pair (a b : Interface) : Compilation :=
  ⟨[⟨0, "", { stage := .vertex, entry := "main" }⟩, ⟨1, "", a⟩, ⟨2, "", b⟩], []⟩

/-- A fragment stage with a single image. -/
def textured (name : String) : Interface :=
  { stage := .fragment, entry := "main", images := [⟨name, 0, .flat⟩] }

/-- Both programs have an image on the same slot. -/
def texturedPair : Compilations :=
  .ofList [(.glsl330, pair (textured "tex_a") (textured "tex_b")),
    (.metalMacos, pair (textured "tex_a") (textured "tex_b"))]

def pairOptions : Options :=
  .ofCompilations texturedPair "quad.h"

/-- The image of the second program, for the second dialect, has lost its slot to that of the first
program. -/
theorem slots_declared_of_texturedPair :
    ∃ h, Header.make? pairFile texturedPair pairOptions = .ok h ∧
      ∃ s ∈ h.opening, DeclaresSlot "" s.declarations.images h.warnings .image "tex_b" 0 := by
  obtain ⟨h, hmake, -⟩ : ∃ h, Header.make? pairFile texturedPair pairOptions = .ok h ∧
      h.opening.isSome = true := exists_of_map_toOption (by decide +kernel)
  obtain ⟨e, hcheck, -, -, s, hs, -, -, -, hslots⟩ :=
    Header.slots_declared hmake (d := .metalMacos) (by decide)
  obtain ⟨e', hcheck', himages⟩ : ∃ e, Edition.check? pairFile .metalMacos texturedPair = .ok e ∧
      e.programs.map (fun p => p.fragment.source.interface.images) =
        [[⟨"tex_a", 0, .flat⟩], [⟨"tex_b", 0, .flat⟩]] := exists_of_map_toOption (by decide +kernel)
  obtain rfl : e = e' := Except.ok.inj (hcheck.symm.trans hcheck')
  obtain ⟨p, hp, hb⟩ := exists_mem_of_map_eq himages (List.mem_cons_of_mem _ List.mem_cons_self)
  exact ⟨h, hmake, s, hs, (hslots p hp .fragment).1 ⟨"tex_b", 0, .flat⟩ (hb ▸ List.mem_cons_self)⟩

end Sample

end ShaderHeader
