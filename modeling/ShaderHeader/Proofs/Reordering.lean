import ShaderHeader.Proofs.Variation

/-!
# Order within a stage

The order in which a stage lists its blocks and its images does not matter. Resources are looked up
by slot, and in a stage that is accepted no two of them share one: so every look-up has one answer
only, and whoever comes first on a slot among all stages still does so.
-/

namespace ShaderHeader

open Check

/-! ### Stages in another order -/

namespace Interface

/-- The same stage, with its blocks and its images listed in another order. -/
structure Reorders (i j : Interface) : Prop where
  stage : i.stage = j.stage
  entry : i.entry = j.entry
  inputs : i.inputs = j.inputs
  outputs : i.outputs = j.outputs
  blocks : i.blocks.Perm j.blocks
  images : i.images.Perm j.images

/-- A stage that uses no slot twice, in another order. -/
structure ReordersSlots (i j : Interface) : Prop extends i.Reorders j where
  nodup_blocks : (i.blocks.map Block.slot).Nodup
  nodup_images : (i.images.map Image.slot).Nodup

variable {i j : Interface}

lemma Reorders.symm (h : i.Reorders j) : j.Reorders i :=
  ⟨h.stage.symm, h.entry.symm, h.inputs.symm, h.outputs.symm, h.blocks.symm, h.images.symm⟩

/-- Whether a stage is well-formed does not depend on the order. -/
lemma Reorders.isWellFormed (h : i.Reorders j) (hi : i.IsWellFormed) : j.IsWellFormed where
  block_lt := fun b hb => hi.block_lt b (h.blocks.mem_iff.mpr hb)
  nodup_blocks := (h.blocks.map _).nodup_iff.mp hi.nodup_blocks
  image_lt := fun m hm => hi.image_lt m (h.images.mem_iff.mpr hm)
  nodup_images := (h.images.map _).nodup_iff.mp hi.nodup_images
  blocks := fun b hb => hi.blocks b (h.blocks.mem_iff.mpr hb)

lemma ReordersSlots.sameDescription (h : i.ReordersSlots j) : i.SameDescription j where
  stage := h.stage
  entry := h.entry
  inputs := h.inputs
  outputs := h.outputs
  block? := fun slot =>
    congrArg (Option.bind · Block.entry?) (Keys.find?_eq_of_perm h.blocks h.nodup_blocks slot)
  image? := Keys.find?_eq_of_perm h.images h.nodup_images

lemma blockProfiles_eq_of_perm {bs bs' : List Block} (h : bs.Perm bs')
    (hnodup : (bs.map Block.slot).Nodup) : blockProfiles bs = blockProfiles bs' := by
  refine sortBySlot_eq_of_perm (h.map Block.profile) ?_
  rw [List.map_map]
  exact hnodup

lemma ReordersSlots.profile_eq (h : i.ReordersSlots j) : i.profile = j.profile := by
  rw [profile, profile, h.inputs, blockProfiles_eq_of_perm h.blocks h.nodup_blocks,
    sortBySlot_eq_of_perm h.images h.nodup_images]

end Interface

/-! ### Merging in another order -/

section Merging

variable {α : Type} [Resource α] {rs rs' qs qs' : List α}

/-- Resources in another order, in which the same ones come first on their slots. -/
structure KeepsFirst (rs rs' : List α) : Prop where
  perm : rs.Perm rs'
  firstOn?_eq : ∀ slot, firstOn? rs slot = firstOn? rs' slot

namespace KeepsFirst

/-- Every resource comes first if none of them share a slot. -/
lemma of_nodup (h : rs.Perm rs') (hnodup : (rs.map Resource.slot).Nodup) : KeepsFirst rs rs' :=
  ⟨h, Keys.find?_eq_of_perm h hnodup⟩

lemma append (h : KeepsFirst rs rs') (h' : KeepsFirst qs qs') :
    KeepsFirst (rs ++ qs) (rs' ++ qs') where
  perm := h.perm.append h'.perm
  firstOn?_eq := fun slot => by
    rw [firstOn?_append, firstOn?_append, h.firstOn?_eq, h'.firstOn?_eq]

lemma flatMap {β : Type} {R : β → β → Prop} {bs bs' : List β} {g : β → List α}
    (h : List.Forall₂ R bs bs') (hg : ∀ b b', R b b' → KeepsFirst (g b) (g b')) :
    KeepsFirst (bs.flatMap g) (bs'.flatMap g) := by
  induction h with
  | nil => exact ⟨.nil, fun _ => rfl⟩
  | cons hb _ ih =>
    rw [List.flatMap_cons, List.flatMap_cons]
    exact (hg _ _ hb).append ih

/-- Whether names fit is settled by who comes first on each slot. -/
lemma namesFit (h : KeepsFirst rs rs') (hfit : NamesFit rs) : NamesFit rs' := by
  simpa only [NamesFit, IsFirst, h.firstOn?_eq] using hfit

end KeepsFirst

namespace SlotTable

/-- The same holders and the same losses, in another order. -/
structure Reorders (t t' : SlotTable α) : Prop where
  holders : t.holders.Perm t'.holders
  nodup_slots : (t.holders.map Resource.slot).Nodup
  shadowed : t.shadowed.Perm t'.shadowed

lemma Merges.reorders {t t' : SlotTable α} (h : t.Merges rs) (h' : t'.Merges rs')
    (hfirst : KeepsFirst rs rs') : t.Reorders t' where
  holders := by
    refine (List.perm_ext_iff_of_nodup h.nodup_slots.of_map h'.nodup_slots.of_map).mpr ?_
    intro r
    rw [h.mem_holders_iff, h'.mem_holders_iff, IsFirst, IsFirst, hfirst.firstOn?_eq]
  nodup_slots := h.nodup_slots
  shadowed := by
    have hlosses : losses rs = losses rs' := by
      funext r
      simp only [losses, hfirst.firstOn?_eq]
    rw [h.shadowed_eq, h'.shadowed_eq, hlosses]
    exact hfirst.perm.flatMap_right _

end SlotTable

end Merging

/-! ### Compilations in another order -/

/-- Every stage of every compilation lists its blocks and its images in some other order. -/
def Compilations.Reorder (cs cs' : Compilations) : Prop :=
  ∀ d, Option.Rel (Compilation.Varies Interface.Reorders) (cs d) (cs' d)

namespace Compilation.Varies

variable {c c' : Compilation}

lemma reorders_symm (h : c.Varies Interface.Reorders c') : c'.Varies Interface.Reorders c :=
  ⟨h.sources.flip.imp fun _ _ hs => ⟨hs.snippet.symm, hs.code.symm, hs.interface.symm⟩,
    h.blobs.symm⟩

/-- The sources of an accepted compilation use no slot twice. -/
lemma reordersSlots (h : c.Varies Interface.Reorders c')
    (hsources : ∀ s ∈ c.sources, s.interface.IsWellFormed) :
    c.Varies Interface.ReordersSlots c' := by
  refine ⟨((List.forall₂_and_left _ _).mpr ⟨hsources, h.sources⟩).imp ?_, h.blobs⟩
  rintro s s' ⟨hs, hreorders⟩
  exact ⟨hreorders.snippet, hreorders.code, hreorders.interface, hs.nodup_blocks,
    hs.nodup_images⟩

lemma keepsFirst_images (h : c.Varies Interface.ReordersSlots c') : KeepsFirst c.images c'.images :=
  .flatMap h.sources fun _ _ hs => .of_nodup hs.interface.images hs.interface.nodup_images

lemma keepsFirst_blocks (h : c.Varies Interface.ReordersSlots c') : KeepsFirst c.blocks c'.blocks :=
  .flatMap h.sources fun _ _ hs => .of_nodup hs.interface.blocks hs.interface.nodup_blocks

end Compilation.Varies

lemma Compilations.Reorder.symm {cs cs' : Compilations} (h : cs.Reorder cs') : cs'.Reorder cs := by
  intro d
  have hd := h d
  generalize cs d = c, cs' d = c' at hd ⊢
  cases hd with
  | none    => exact .none
  | some hc => exact .some hc.reorders_symm

/-! ### Editions in another order -/

namespace Edition

/-- The edition of a compilation in another order. -/
structure Reorders (e e' : Edition) : Prop extends e.Varies Interface.ReordersSlots e' where
  images : e.bindings.images.Reorders e'.bindings.images
  blocks : e.bindings.blocks.Reorders e'.bindings.blocks

variable {f : ShaderFile} {d : Dialect} {cs cs' : Compilations} {e e' : Edition}

/-- A compilation in another order still has an edition. -/
lemma exists_reorders (h : cs.Reorder cs') (he : Edition.check? f d cs = .ok e) :
    ∃ e', Edition.check? f d cs' = .ok e' ∧ e.Reorders e' := by
  obtain ⟨-, hc, -, hsources, -, -, hbindings⟩ := check?_eq_ok_iff.mp he
  have hsources : ∀ s ∈ e.compilation.sources, s.interface.IsWellFormed :=
    fun s hs => checkSource_eq_ok_iff_isWellFormed.mp (hsources s hs)
  obtain ⟨c', hc', hvaries⟩ :
      ∃ c', cs' d = some c' ∧ e.compilation.Varies Interface.Reorders c' := by
    have hd := h d
    rw [hc] at hd
    generalize cs' d = c' at hd
    cases hd with
    | some hvaries => exact ⟨_, rfl, hvaries⟩
  have hslots := hvaries.reordersSlots hsources
  have himages := hslots.keepsFirst_images
  have hblocks := hslots.keepsFirst_blocks
  obtain ⟨hfit, hfit'⟩ := Bindings.exists_ofCompilation?_iff.mp ⟨_, hbindings⟩
  -- names are on the same slots, so the bindings do not fail
  obtain ⟨b, hb⟩ := Bindings.exists_ofCompilation?_iff (f := f).mpr
    ⟨himages.namesFit hfit, hblocks.namesFit hfit'⟩
  -- neither do the checks of sources, none of which depends on the order
  have hsources' : ∀ s ∈ c'.sources, checkSource f s = .ok () := by
    intro s' hs'
    obtain ⟨s, hs, hreorders⟩ := exists_mem_of_forall₂ hvaries.sources hs'
    exact checkSource_eq_ok_iff_isWellFormed.mpr
      (hreorders.interface.isWellFormed (hsources s hs))
  obtain ⟨e', he', hvaried, rfl⟩ := exists_check?_of_varies
    Interface.ReordersSlots.sameDescription he hc' hslots hsources' hb
  exact ⟨e', he', hvaried,
    (Bindings.merges_images hbindings).reorders (Bindings.merges_images hb) himages,
    (Bindings.merges_blocks hbindings).reorders (Bindings.merges_blocks hb) hblocks⟩

/-- Profiles are ordered by slot. -/
lemma Reorders.profile_eq (h : e.Reorders e') : e.profile = e'.profile := by
  have hprograms : e.programs.map LinkedProgram.profile =
      e'.programs.map LinkedProgram.profile := by
    refine map_eq_of_forall₂ h.programs fun p q hpq => ?_
    have hvertex := (hpq.stage .vertex).source.interface.profile_eq
    have hfragment := (hpq.stage .fragment).source.interface.profile_eq
    exact Prod.ext hvertex hfragment
  have himages : sortBySlot Image.slot e.bindings.images.holders =
      sortBySlot Image.slot e'.bindings.images.holders :=
    sortBySlot_eq_of_perm h.images.holders h.images.nodup_slots
  rw [profile, profile, hprograms, himages,
    Interface.blockProfiles_eq_of_perm h.blocks.holders h.blocks.nodup_slots]

lemma Reorders.shadowed_perm (h : e.Reorders e') :
    e.bindings.shadowed.Perm e'.bindings.shadowed :=
  h.images.shadowed.append h.blocks.shadowed

end Edition

/-! ### Headers in another order -/

namespace Header

variable {f : ShaderFile} {cs cs' : Compilations} {o : Options}

/-- The same sections and accessors, and the same declarations and warnings in another order. -/
structure Reorders (h h' : Header) : Prop where
  sections : h.sections = h'.sections
  accessors : h.accessors = h'.accessors
  declarations : Option.Rel (fun a b => a.declarations.SameResources b.declarations)
    h.opening h'.opening
  warnings : h.warnings.Perm h'.warnings

/-- A header can be made of compilations in another order. -/
lemma exists_reorders (hcs : cs.Reorder cs') {h : Header} (hmake : make? f cs o = .ok h) :
    ∃ h', make? f cs' o = .ok h' ∧ h.Reorders h' := by
  obtain ⟨es, hmade⟩ := exists_madeFrom hmake
  obtain ⟨h', es', hmake', hmade', hes⟩ := hmade.exists_counterpart_header
    (fun d e he => Edition.exists_reorders hcs he)
    (fun ha hb heq => ha.profile_eq.symm.trans (heq.trans hb.profile_eq))
  have hsections := hmade.sections_eq Interface.ReordersSlots.sameDescription hmade'
    (hes.imp fun _ _ he => he.toVaries)
  have haccessors := hmade.accessors.trans hmade'.accessors.symm
  refine ⟨h', hmake', ?_⟩
  cases hes with
  | nil =>
    obtain rfl := hmade.eq_of_nil hmake hmake'
    refine ⟨rfl, rfl, ?_, .refl _⟩
    rw [hmade.opening_eq_none]
    exact .none
  | cons hfirst _ =>
    obtain ⟨a, ha, hopening, -, hwarnings⟩ := hmade.exists_opening_of_cons
    obtain ⟨b, hb, hopening', -, hwarnings'⟩ := hmade'.exists_opening_of_cons
    have hsame : a.declarations.SameResources b.declarations :=
      Declarations.sameResources_of_profile_eq (Opening.ofEdition?_eq_ok_iff.mp hopening).2.1
        (Opening.ofEdition?_eq_ok_iff.mp hopening').2.1 hfirst.profile_eq
    refine ⟨hsections, haccessors, ?_, ?_⟩
    · rw [ha, hb]
      exact .some hsame
    · rw [hwarnings, hwarnings']
      exact hfirst.shadowed_perm.append hsame.warnings_perm

/-- The order in which stages list their blocks and images does not decide whether a header can be
made. If it can, then all sections and accessors are the same in any order, and so are, up to their
order, the constants for images, the blocks' constants and structs, and the warnings. -/
theorem make?_reorder (hcs : cs.Reorder cs') (f : ShaderFile) (o : Options) :
    ((∃ h, make? f cs o = .ok h) ↔ ∃ h', make? f cs' o = .ok h') ∧
      ∀ h h', make? f cs o = .ok h → make? f cs' o = .ok h' → h.Reorders h' := by
  refine ⟨⟨?_, ?_⟩, ?_⟩
  · rintro ⟨h, hmake⟩
    obtain ⟨h', hmake', -⟩ := exists_reorders hcs hmake
    exact ⟨h', hmake'⟩
  · rintro ⟨h', hmake'⟩
    obtain ⟨h, hmake, -⟩ := exists_reorders hcs.symm hmake'
    exact ⟨h, hmake⟩
  · intro h h' hmake hmake'
    obtain ⟨h'', hmake'', hreorders⟩ := exists_reorders hcs hmake
    obtain rfl : h' = h'' := Except.ok.inj (hmake'.symm.trans hmake'')
    exact hreorders

end Header

namespace Sample

/-- The small file, with the images of each dialect in the order that its siblings had. -/
def swapped : Compilations :=
  .ofList [(.glsl330, compilation [sky, diffuse] []),
    (.hlsl5, compilation [diffuse, sky] [⟨1, [0xde, 0xad]⟩]),
    (.metalMacos, compilation [diffuse, sky] [])]

lemma compilation_reorders {images images' : List Image} (h : images.Perm images')
    (blobs : List Blob) :
    (compilation images blobs).Varies Interface.Reorders (compilation images' blobs) := by
  have hfragment : (fragment images).Reorders (fragment images') :=
    ⟨rfl, rfl, rfl, rfl, .refl _, h⟩
  exact ⟨.cons ⟨rfl, rfl, ⟨rfl, rfl, rfl, rfl, .refl _, .refl _⟩⟩
    (.cons ⟨rfl, rfl, hfragment⟩ .nil), rfl⟩

lemma reorder_swapped : compilations.Reorder swapped := by
  intro d
  cases d with
  | glsl330    => exact .some (compilation_reorders (.swap _ _ []) _)
  | hlsl5      => exact .some (compilation_reorders (.swap _ _ []) _)
  | metalMacos => exact .some (compilation_reorders (.swap _ _ []) _)
  | _          => exact .none

/-- The constants for the two images change places, and nothing else happens. -/
theorem make?_reorder_of_swapped :
    ∃ h h', Header.make? file compilations options = .ok h ∧
      Header.make? file swapped options = .ok h' ∧ h.Reorders h' := by
  obtain ⟨hiff, hreorders⟩ := Header.make?_reorder reorder_swapped file options
  obtain ⟨h, hmake⟩ := exists_header
  obtain ⟨h', hmake'⟩ := hiff.mp ⟨h, hmake⟩
  exact ⟨h, h', hmake, hmake', hreorders h h' hmake hmake'⟩

end Sample

end ShaderHeader
