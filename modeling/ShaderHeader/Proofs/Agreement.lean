import ShaderHeader.Proofs.Additions
import ShaderHeader.Proofs.Header

/-!
# Agreement of editions

Editions agree exactly if they have the same profile, so agreement is an equivalence, although a
header only ever compares an edition with the first one. The profile fixes the descriptors' tables:
an edition is looked up by slot, and ordering by slot keeps the first resource of every slot.
-/

namespace ShaderHeader

open Check

/-! ### Order by slot -/

section Sorting

variable {α : Type} {slot : α → Nat}

/-- What has the same slot stays in order. -/
lemma filter_sortBySlot (as : List α) (n : Nat) :
    (sortBySlot slot as).filter (fun b => slot b = n) = as.filter (fun b => slot b = n) := by
  have hperm : (sortBySlot slot as).Perm as := List.mergeSort_perm ..
  have hsorted : (as.filter fun b => slot b = n).Pairwise fun b c =>
      decide (slot b ≤ slot c) = true := by
    refine List.pairwise_of_forall_mem_list fun b hb c hc => ?_
    simp only [List.mem_filter, decide_eq_true_eq] at hb hc ⊢
    omega
  -- what has one slot is in order already, and a stable sort keeps it so
  have hsublist : (as.filter fun b => slot b = n).Sublist (sortBySlot slot as) :=
    List.sublist_mergeSort (by grind) (by grind) hsorted List.filter_sublist
  refine ((?_ : List.Sublist _ _).eq_of_length ?_).symm
  · simpa using hsublist.filter fun b => decide (slot b = n)
  · exact ((hperm.filter _).length_eq).symm

/-- Ordering by slot keeps the first element of every slot. -/
lemma find?_sortBySlot (as : List α) (n : Nat) :
    (sortBySlot slot as).find? (fun b => slot b = n) = as.find? (fun b => slot b = n) := by
  rw [← List.head?_filter, ← List.head?_filter, filter_sortBySlot]

lemma pairwise_sortBySlot (as : List α) :
    (sortBySlot slot as).Pairwise fun b c => slot b ≤ slot c := by
  refine (List.pairwise_mergeSort (by grind) (by grind) as).imp ?_
  exact of_decide_eq_true

/-- If no slot occurs twice then there is only one order by slot. -/
lemma sortBySlot_eq_of_perm {as bs : List α} (h : as.Perm bs) (hnodup : (as.map slot).Nodup) :
    sortBySlot slot as = sortBySlot slot bs := by
  have hperm := (perm_sortBySlot slot as).trans (h.trans (perm_sortBySlot slot bs).symm)
  refine hperm.eq_of_pairwise (fun b c hb hc hle hge => ?_) (pairwise_sortBySlot as)
    (pairwise_sortBySlot bs)
  have hb := (perm_sortBySlot slot as).mem_iff.mp hb
  have hc := (perm_sortBySlot slot as).mem_iff.mp (hperm.mem_iff.mpr hc)
  exact List.inj_on_of_nodup_map hnodup hb hc (Nat.le_antisymm hle hge)

end Sorting

/-! ### Tables of a stage -/

/-- The entry of a block in a descriptor depends on the block's profile only. -/
def BlockProfile.entry? (p : BlockProfile) : Option BlockEntry :=
  p.size.map fun size => ⟨p.name, size⟩

lemma find?_blockProfiles (bs : List Block) (n : Nat) :
    (blockProfiles bs).find? (fun p => p.slot = n) =
      (bs.find? fun b => b.slot = n).map Block.profile := by
  rw [blockProfiles, find?_sortBySlot, List.find?_map]
  rfl

lemma Interface.bind_entry?_block? (i : Interface) (n : Nat) :
    (i.block? n).bind Block.entry? =
      (i.profile.blocks.find? fun p => p.slot = n).bind BlockProfile.entry? := by
  rw [Interface.profile, find?_blockProfiles, Option.bind_map]
  rfl

lemma Interface.find?_profile_images (i : Interface) (n : Nat) :
    i.profile.images.find? (fun m => m.slot = n) = i.image? n :=
  find?_sortBySlot i.images n

namespace StageDescriptor

variable {qualifier qualifier' : String} {d d' : Dialect} {stage stage' : Stage}
  {s s' : LinkedStage}

/-- Stages with the same profile have the same block at every slot. -/
lemma blocks_ofLinked_eq (h : s.source.interface.profile = s'.source.interface.profile) :
    (ofLinked qualifier d stage s).blocks = (ofLinked qualifier' d' stage' s').blocks := by
  simp only [ofLinked, Interface.bind_entry?_block?, h]

/-- Stages with the same profile have the same image at every slot. -/
lemma images_ofLinked_eq (h : s.source.interface.profile = s'.source.interface.profile) :
    (ofLinked qualifier d stage s).images = (ofLinked qualifier' d' stage' s').images := by
  simp only [ofLinked, ← Interface.find?_profile_images, h]

end StageDescriptor

/-! ### Attributes -/

namespace AttributeTable

/-- The table has been filled attribute by attribute, each at the location of its slot. -/
def IsPlaced (t : AttributeTable) : Prop :=
  ∃ as : List Attribute, t = as.foldl place empty

/-- In such a table every used attribute has its own location for a slot. -/
lemma IsPlaced.slot_eq {t : AttributeTable} (ht : t.IsPlaced) {i slot : Nat}
    (hi : i < attributeCapacity) (h : t[i].slot = some slot) : slot = i := by
  obtain ⟨as, rfl⟩ := ht
  exact (shows_empty.foldl_place as).slot_eq hi h

/-- The slots in such a table are the locations that are used. -/
lemma IsPlaced.mem_slots_iff {t : AttributeTable} (ht : t.IsPlaced) {i : Nat}
    (hi : i < attributeCapacity) :
    i ∈ t.toList.filterMap Attribute.slot ↔ t[i].isUsed = true := by
  rw [List.mem_filterMap, Attribute.isUsed, Option.isSome_iff_exists]
  constructor
  · rintro ⟨a, ha, hslot⟩
    obtain ⟨j, hj, rfl⟩ := Vector.mem_iff_getElem.mp (Vector.mem_toList_iff.mp ha)
    obtain rfl := ht.slot_eq hj hslot
    exact ⟨i, hslot⟩
  · rintro ⟨slot, hslot⟩
    obtain rfl := ht.slot_eq hi hslot
    exact ⟨t[slot], by simp, hslot⟩

/-- Two such tables with the same slots are used at the same locations. -/
lemma IsPlaced.isUsed_eq {t u : AttributeTable} (ht : t.IsPlaced) (hu : u.IsPlaced)
    (h : t.toList.filterMap Attribute.slot = u.toList.filterMap Attribute.slot) {i : Nat}
    (hi : i < attributeCapacity) : t[i].isUsed = u[i].isUsed := by
  rw [Bool.eq_iff_iff, ← ht.mem_slots_iff hi, ← hu.mem_slots_iff hi, h]

end AttributeTable

lemma Attribute.isSome_entry? (a : Attribute) : a.entry?.isSome = a.isUsed := by
  rw [Attribute.entry?]
  split <;> simp [*]

/-! ### Agreement as equality of profiles -/

/-- What has to be the same in all editions of a file. -/
structure EditionProfile where
  programs : List (InterfaceProfile × InterfaceProfile)
  blocks : List BlockProfile
  images : List Image

/-- The profiles of both stages of a program. -/
def LinkedProgram.profile (p : LinkedProgram) : InterfaceProfile × InterfaceProfile :=
  (p.vertex.source.interface.profile, p.fragment.source.interface.profile)

def Edition.profile (e : Edition) : EditionProfile :=
  ⟨e.programs.map LinkedProgram.profile, blockProfiles e.bindings.blocks.holders,
    sortBySlot Image.slot e.bindings.images.holders⟩

variable {f : ShaderFile} {cs : Compilations}

lemma checkStageAgreement_eq_ok_iff {d e : Dialect} {p q : LinkedProgram} {stage : Stage}
    {u : Unit} :
    checkStageAgreement f d e p q stage = .ok u ↔
      (p.stage stage).source.interface.profile = (q.stage stage).source.interface.profile := by
  rw [checkStageAgreement]
  split <;> simp [*]

lemma checkProgramAgreement_eq_ok_iff {d e : Dialect} {pair : LinkedProgram × LinkedProgram} :
    checkProgramAgreement f d e pair = .ok () ↔ pair.1.profile = pair.2.profile := by
  simp only [checkProgramAgreement, bind_eq_ok_iff, checkStageAgreement_eq_ok_iff,
    LinkedProgram.profile, Prod.mk.injEq]
  constructor
  · rintro ⟨_, hvertex, hfragment⟩
    exact ⟨hvertex, hfragment⟩
  · rintro ⟨hvertex, hfragment⟩
    exact ⟨(), hvertex, hfragment⟩

namespace Edition

/-- An edition of a file that has passed its checks. -/
def IsChecked (f : ShaderFile) (e : Edition) : Prop :=
  ∃ cs, Edition.check? f e.dialect cs = .ok e

lemma IsChecked.of_check? {d : Dialect} {e : Edition} (h : Edition.check? f d cs = .ok e) :
    e.IsChecked f := by
  obtain rfl := (check?_eq_ok_iff.mp h).1
  exact ⟨cs, h⟩

lemma IsChecked.map_program {e : Edition} (h : e.IsChecked f) :
    e.programs.map LinkedProgram.program = f.programs.values := by
  obtain ⟨cs, hcheck⟩ := h
  exact map_program_of_check? hcheck

variable {e e' : Edition}

/-- Checked editions have their programs in the same order, so comparing them pair by pair compares
all of them. -/
lemma checkAgreement_eq_ok_iff (he : e.IsChecked f) (he' : e'.IsChecked f) :
    e.checkAgreement f e' = .ok () ↔ e.profile = e'.profile := by
  have hlen : e.programs.length = e'.programs.length := by
    have h := congrArg List.length
      (he.map_program.trans he'.map_program.symm)
    simpa using h
  have hprograms : (∀ pair ∈ e.programs.zip e'.programs, pair.1.profile = pair.2.profile) ↔
      e.programs.map LinkedProgram.profile = e'.programs.map LinkedProgram.profile := by
    rw [← List.forall₂_eq_eq_eq, List.forall₂_map_left_iff, List.forall₂_map_right_iff,
      List.forall₂_iff_zip]
    exact ⟨fun h => ⟨hlen, fun hab => h _ hab⟩, fun h _ hab => h.2 hab⟩
  have hbindings : e.bindings.agree e'.bindings = true ↔
      blockProfiles e.bindings.blocks.holders = blockProfiles e'.bindings.blocks.holders ∧
        sortBySlot Image.slot e.bindings.images.holders =
          sortBySlot Image.slot e'.bindings.images.holders := by
    simp [Bindings.agree]
  simp only [checkAgreement, bind_eq_ok_iff, forM_eq_ok_iff, checkProgramAgreement_eq_ok_iff,
    hprograms, profile, EditionProfile.mk.injEq, ← hbindings]
  constructor
  · rintro ⟨_, hp, hb⟩
    split at hb
    · exact ⟨hp, ‹_›⟩
    · cases hb
  · rintro ⟨hp, hb⟩
    exact ⟨(), hp, by rw [if_pos hb]; rfl⟩

end Edition

/-! ### The same tables -/

/-- Both stages have the same block and the same image at every slot. -/
def Descriptor.SameResources (a b : Descriptor) : Prop :=
  ∀ stage, (a.stage stage).blocks = (b.stage stage).blocks ∧
    (a.stage stage).images = (b.stage stage).images

/-- The attribute tables are populated at the same locations. -/
def Descriptor.SameLocations (a b : Descriptor) : Prop :=
  ∀ i (_ : i < attributeCapacity), a.attributes[i].isSome = b.attributes[i].isSome

/-- The editions have the same programs, and the descriptors of each have the same tables. Only the
slots of attributes are compared, so of attribute tables this holds if they were filled by slot. -/
def Edition.SameTables (f : ShaderFile) (e e' : Edition) : Prop :=
  List.Forall₂
    (fun p q => p.program = q.program ∧
      (Descriptor.ofLinked f.qualifier e.dialect p).SameResources
        (.ofLinked f.qualifier e'.dialect q) ∧
      (p.vertex.source.interface.inputs.IsPlaced → q.vertex.source.interface.inputs.IsPlaced →
        (Descriptor.ofLinked f.qualifier e.dialect p).SameLocations
          (.ofLinked f.qualifier e'.dialect q)))
    e.programs e'.programs

namespace LinkedProgram

variable {p q : LinkedProgram} {qualifier : String} {d d' : Dialect}

lemma sameResources_ofLinked (h : p.profile = q.profile) :
    (Descriptor.ofLinked qualifier d p).SameResources (.ofLinked qualifier d' q) := by
  intro stage
  have hstage : (p.stage stage).source.interface.profile =
      (q.stage stage).source.interface.profile := by
    cases stage with
    | vertex   => exact (Prod.mk.inj h).1
    | fragment => exact (Prod.mk.inj h).2
  rw [Descriptor.stage_ofLinked, Descriptor.stage_ofLinked]
  exact ⟨StageDescriptor.blocks_ofLinked_eq hstage, StageDescriptor.images_ofLinked_eq hstage⟩

lemma sameLocations_ofLinked (h : p.profile = q.profile)
    (hp : p.vertex.source.interface.inputs.IsPlaced)
    (hq : q.vertex.source.interface.inputs.IsPlaced) :
    (Descriptor.ofLinked qualifier d p).SameLocations (.ofLinked qualifier d' q) := by
  have hslots := congrArg InterfaceProfile.locations (Prod.mk.inj h).1
  intro i hi
  have hused := hp.isUsed_eq hq hslots hi
  simpa [Descriptor.ofLinked, Attribute.isSome_entry?] using hused

end LinkedProgram

namespace Edition

variable {e e' : Edition}

/-- Checked editions with the same profile have the same programs, with the same profiles. -/
lemma forall₂_profile_eq (he : e.IsChecked f) (he' : e'.IsChecked f) (h : e.profile = e'.profile) :
    List.Forall₂ (fun p q => p.program = q.program ∧ p.profile = q.profile)
      e.programs e'.programs := by
  have hprogram := he.map_program.trans he'.map_program.symm
  have hprofile := congrArg EditionProfile.programs h
  have hboth : e.programs.map (fun p => (p.program, p.profile)) =
      e'.programs.map fun p => (p.program, p.profile) := by
    calc e.programs.map (fun p => (p.program, p.profile))
      _ = (e.programs.map LinkedProgram.program).zip (e.programs.map LinkedProgram.profile) :=
        (List.zip_map' ..).symm
      _ = (e'.programs.map LinkedProgram.program).zip (e'.programs.map LinkedProgram.profile) :=
        congrArg₂ List.zip hprogram hprofile
      _ = e'.programs.map fun p => (p.program, p.profile) := List.zip_map' ..
  rw [← List.forall₂_eq_eq_eq, List.forall₂_map_left_iff, List.forall₂_map_right_iff] at hboth
  exact hboth.imp fun p q hpq => Prod.mk.inj hpq

/-- Checked editions with the same profile have the same tables. -/
lemma sameTables_of_profile_eq (he : e.IsChecked f) (he' : e'.IsChecked f)
    (h : e.profile = e'.profile) : e.SameTables f e' := by
  apply (forall₂_profile_eq he he' h).imp
  rintro p q ⟨hprog, hprof⟩
  exact ⟨hprog, LinkedProgram.sameResources_ofLinked hprof,
    fun hp hq => LinkedProgram.sameLocations_ofLinked hprof hp hq⟩

end Edition

/-- All editions of a header have the profile of the first one. -/
lemma Header.MadeFrom.profile_eq {o : Options} {h : Header} {es : List Edition}
    (hmade : MadeFrom f cs o h es) {e e' : Edition} (he : e ∈ es) (he' : e' ∈ es) :
    e.profile = e'.profile := by
  obtain ⟨first, hfirst⟩ := Option.isSome_iff_exists.mp
    (List.isSome_head?.mpr (List.ne_nil_of_mem he))
  have hall : ∀ e ∈ es, first.profile = e.profile := by
    intro e he
    -- the first edition itself, or one that has been compared with it
    obtain rfl | hmem := List.mem_cons.mp (List.cons_head?_tail hfirst ▸ he)
    · rfl
    · obtain ⟨d, -, hd⟩ := hmade.exists_check? (List.mem_of_mem_head? hfirst)
      obtain ⟨d', -, hd'⟩ := hmade.exists_check? he
      exact (Edition.checkAgreement_eq_ok_iff (.of_check? hd) (.of_check? hd')).mp
        (hmade.agree first hfirst e hmem)
  exact (hall e he).symm.trans (hall e' he')

/-- A program of one edition is a program of every other edition, with the same profile. -/
lemma Header.MadeFrom.exists_counterpart {o : Options} {h : Header} {es : List Edition}
    (hmade : MadeFrom f cs o h es) {e e' : Edition} (he : e ∈ es) (he' : e' ∈ es)
    {p : LinkedProgram} (hp : p ∈ e.programs) :
    ∃ q ∈ e'.programs, q.program = p.program ∧ q.profile = p.profile := by
  obtain ⟨d, -, hd⟩ := hmade.exists_check? he
  obtain ⟨d', -, hd'⟩ := hmade.exists_check? he'
  exact exists_mem_of_forall₂ (Edition.forall₂_profile_eq (.of_check? hd') (.of_check? hd)
    (hmade.profile_eq he' he)) hp

/-- Agreement is an equivalence on the checked editions of a file, and editions that agree give the
runtime the same tables. So do any two editions of a header, whichever of them comes first. -/
theorem Header.editions_agree (f : ShaderFile) :
    (Equivalence fun e e' : { e : Edition // e.IsChecked f } =>
      e.1.checkAgreement f e'.1 = .ok ()) ∧
    (∀ e e' : Edition, e.IsChecked f → e'.IsChecked f →
      e.checkAgreement f e' = .ok () → e.SameTables f e') ∧
    ∀ cs o h, Header.make? f cs o = .ok h →
      ∃ es, List.Forall₂ (fun d e => Edition.check? f d cs = .ok e) o.dialects.toList es ∧
        h.sections = es.map (Section.ofEdition f · o.guarded) ∧
        ∀ e ∈ es, ∀ e' ∈ es, e.checkAgreement f e' = .ok () ∧ e.SameTables f e' := by
  refine ⟨⟨fun e => ?_, fun {e e'} h => ?_, fun {e e' e''} h h' => ?_⟩, ?_, ?_⟩
  · -- agreement is equality of profiles, hence an equivalence
    exact (Edition.checkAgreement_eq_ok_iff e.2 e.2).mpr rfl
  · rw [Edition.checkAgreement_eq_ok_iff e.2 e'.2] at h
    exact (Edition.checkAgreement_eq_ok_iff e'.2 e.2).mpr h.symm
  · rw [Edition.checkAgreement_eq_ok_iff e.2 e'.2] at h
    rw [Edition.checkAgreement_eq_ok_iff e'.2 e''.2] at h'
    exact (Edition.checkAgreement_eq_ok_iff e.2 e''.2).mpr (h.trans h')
  · intro e e' he he' h
    exact Edition.sameTables_of_profile_eq he he'
      ((Edition.checkAgreement_eq_ok_iff he he').mp h)
  · intro cs o h hmake
    obtain ⟨es, hmade⟩ := Header.exists_madeFrom hmake
    refine ⟨es, hmade.checked, hmade.sections, ?_⟩
    intro e he e' he'
    obtain ⟨d, -, hd⟩ := hmade.exists_check? he
    obtain ⟨d', -, hd'⟩ := hmade.exists_check? he'
    have hchecked := Edition.IsChecked.of_check? hd
    have hchecked' := Edition.IsChecked.of_check? hd'
    have heq := hmade.profile_eq he he'
    exact ⟨(Edition.checkAgreement_eq_ok_iff hchecked hchecked').mpr heq,
      Edition.sameTables_of_profile_eq hchecked hchecked' heq⟩

namespace Sample

/-- The images of the small file, in the order in which a dialect lists them. -/
def images (d : Dialect) : List Image :=
  if d = .glsl330 then [diffuse, sky] else [sky, diffuse]

/-- All editions of the small file have one profile, as the order of images does not matter. -/
lemma exists_edition {d : Dialect} (hd : d ∈ options.dialects.toList) :
    ∃ e, Edition.check? file d compilations = .ok e ∧
      e.profile = ⟨[(vertex.profile, (fragment [diffuse, sky]).profile)],
        blockProfiles vertex.blocks, sortBySlot Image.slot [diffuse, sky]⟩ := by
  obtain ⟨e, he, hparts⟩ : ∃ e, Edition.check? file d compilations = .ok e ∧
      (e.programs.map fun p => (p.vertex.source.interface, p.fragment.source.interface),
        e.bindings.blocks.holders, e.bindings.images.holders) =
      ([(vertex, fragment (images d))], vertex.blocks, images d) := by
    apply exists_of_map_toOption
    revert d
    decide +kernel
  simp only [Prod.mk.injEq] at hparts
  obtain ⟨hprograms, hblocks, himages⟩ := hparts
  -- the two images are on different slots, so the order they come in is lost
  have hsorted : sortBySlot Image.slot (images d) = sortBySlot Image.slot [diffuse, sky] := by
    unfold images
    split_ifs
    · rfl
    · exact sortBySlot_eq_of_perm (.swap diffuse sky []) (by decide)
  have hprofiles : e.programs.map LinkedProgram.profile =
      [(vertex.profile, (fragment (images d)).profile)] := by
    have h := congrArg (List.map (Prod.map Interface.profile Interface.profile)) hprograms
    rwa [List.map_map] at h
  refine ⟨e, he, ?_⟩
  rw [Edition.profile, hprofiles, hblocks, himages, hsorted]
  simp only [Interface.profile, fragment, Interface.addInput]
  rw [hsorted]

/-- The small file has a header for all its dialects, wherever this is to be written to. -/
lemma exists_header_of_dialects {o : Options} (ho : o.dialects = options.dialects) :
    ∃ h, Header.make? file compilations o = .ok h := by
  have hdialects : o.dialects.toList = [.glsl330, .hlsl5, .metalMacos] := by
    rw [ho]
    decide
  obtain ⟨first, hfirst, hok⟩ : ∃ e, Edition.check? file .glsl330 compilations = .ok e ∧
      (Declarations.ofEdition? file e).isOk = true := exists_of_map_toOption (by decide +kernel)
  obtain ⟨first', hfirst', hprofile⟩ := exists_edition (d := .glsl330) (by decide)
  obtain rfl : first = first' := Except.ok.inj (hfirst.symm.trans hfirst')
  cases hdeclarations : Declarations.ofEdition? file first with
  | error failure => rw [hdeclarations] at hok; cases hok
  | ok declarations =>
    have hopening : Opening.ofEdition? file o first = .ok ⟨.ofEdition file o.version first,
        declarations, (Path.fileName? o.output).getD o.output⟩ := by
      rw [Opening.ofEdition?, hdeclarations]
      rfl
    have hfollows : ∀ d ∈ [Dialect.hlsl5, .metalMacos], ∃ e,
        Edition.check? file d compilations = .ok e ∧ first.checkAgreement file e = .ok () := by
      intro d hd
      obtain ⟨e, he, hprofile'⟩ := exists_edition (ho ▸ hdialects ▸ List.mem_cons_of_mem _ hd)
      exact ⟨e, he, (Edition.checkAgreement_eq_ok_iff (.of_check? hfirst) (.of_check? he)).mpr
        (hprofile.trans hprofile'.symm)⟩
    obtain ⟨others, hothers⟩ := exists_forall₂_iff.mpr hfollows
    exact ⟨_, (Header.make?_eq_ok_iff_of_cons hdialects).mpr
      ⟨first, _, others, hfirst, hopening, hothers, rfl⟩⟩

/-- The file has a header for all three dialects. -/
lemma exists_header : ∃ h, Header.make? file compilations options = .ok h :=
  exists_header_of_dialects rfl

end Sample

/-- The editions of a small header agree, although they list their images in different orders. -/
theorem Sample.editions_of_small_header :
    ∃ h es, Header.make? file compilations options = .ok h ∧
      List.Forall₂ (fun d e => Edition.check? file d compilations = .ok e)
        [.glsl330, .hlsl5, .metalMacos] es ∧
      h.sections = es.map (Section.ofEdition file · true) ∧
      ∀ e ∈ es, ∀ e' ∈ es, e.checkAgreement file e' = .ok () ∧ e.SameTables file e' := by
  obtain ⟨h, hmake⟩ := exists_header
  obtain ⟨es, hes, hsections, hagree⟩ :=
    (Header.editions_agree file).2.2 compilations options h hmake
  exact ⟨h, es, hmake, hes, hsections, hagree⟩

end ShaderHeader
