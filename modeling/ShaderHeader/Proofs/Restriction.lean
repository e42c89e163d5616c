import ShaderHeader.Proofs.UnsupportedFields
import ShaderHeader.Proofs.Variation

/-!
# Fewer types

Some uniforms lose their type, the same ones in every source of every dialect. A uniform without a
type takes no bytes, so blocks that had a struct still have one, and editions that agreed still do:
a lost type is never a failure. It is seen in the structs only, where a marker takes the place of
the field, and in the warnings.
-/

namespace ShaderHeader

open Check

/-! ### Restricted types -/

/-- Which uniforms lose their type: by the name of the block, their own name and the type. -/
def Restriction := String → String → UniformType → Bool

variable (r : Restriction)

/-- A uniform of a block, without its type if the restriction says so. -/
def Uniform.restrict (block : String) (u : Uniform) : Uniform :=
  if r block u.name u.type then { u with type := .unsupported } else u

def Block.restrict (b : Block) : Block :=
  { b with uniforms := b.uniforms.map (Uniform.restrict r b.name) }

def Interface.restrict (i : Interface) : Interface :=
  { i with blocks := i.blocks.map (Block.restrict r) }

def Source.restrict (s : Source) : Source :=
  { s with interface := s.interface.restrict r }

def Compilation.restrict (c : Compilation) : Compilation :=
  { c with sources := c.sources.map (Source.restrict r) }

/-- Restricts the sources of all dialects. -/
def Compilations.restrict (cs : Compilations) : Compilations :=
  fun d => (cs d).map (Compilation.restrict r)

/-! ### Restricted blocks -/

namespace Uniform

variable (block : String) (u : Uniform)

@[simp] lemma name_restrict : (u.restrict r block).name = u.name := by
  unfold restrict; split <;> rfl

@[simp] lemma offset_restrict : (u.restrict r block).offset = u.offset := by
  unfold restrict; split <;> rfl

@[simp] lemma count_restrict : (u.restrict r block).count = u.count := by
  unfold restrict; split <;> rfl

variable {r block u} in
lemma restrict_of_kept (h : r block u.name u.type = false) : u.restrict r block = u := by
  simp [restrict, h]

variable {r block u} in
lemma type_restrict_ne_iff :
    (u.restrict r block).type ≠ .unsupported ↔
      u.type ≠ .unsupported ∧ r block u.name u.type = false := by
  unfold restrict
  split
  · next h => simp [h]
  · next h => simp [h]

lemma stop_restrict_le : (u.restrict r block).stop ≤ u.stop := by
  unfold restrict
  split
  · rw [stop_of_unsupported rfl]
    exact Nat.le_add_right u.offset _
  · exact Nat.le_refl _

end Uniform

lemma Block.stop_restrict_le (b : Block) : (b.restrict r).stop ≤ b.stop := by
  simp only [Block.stop, stopFrom, Block.restrict, List.getLast?_map]
  cases b.uniforms.getLast? with
  | none   => exact Nat.le_refl 0
  | some u => exact u.stop_restrict_le r b.name

/-- Uniforms end where they did or before, so a block is still well-formed. -/
lemma Block.IsWellFormed.restrict {b : Block} (h : b.IsWellFormed) :
    (b.restrict r).IsWellFormed where
  size_lt := h.size_lt
  count_pos := by
    intro u' hu'
    obtain ⟨u, hu, rfl⟩ := List.mem_map.mp hu'
    rw [Uniform.count_restrict]
    exact h.count_pos u hu
  stop_lt := by
    intro u' hu'
    obtain ⟨u, hu, rfl⟩ := List.mem_map.mp hu'
    exact Nat.lt_of_le_of_lt (u.stop_restrict_le r b.name) (h.stop_lt u hu)
  ascending := by
    apply List.pairwise_map.mpr
    refine h.ascending.imp fun {u v} huv => ?_
    rw [Uniform.offset_restrict]
    exact Nat.le_trans (u.stop_restrict_le r b.name) huv
  stop_le := Nat.le_trans (b.stop_restrict_le r) h.stop_le

lemma Interface.IsWellFormed.restrict {i : Interface} (h : i.IsWellFormed) :
    (i.restrict r).IsWellFormed where
  block_lt := List.forall_mem_map.mpr h.block_lt
  nodup_blocks := by
    rw [Interface.restrict, List.map_map]
    exact h.nodup_blocks
  image_lt := h.image_lt
  nodup_images := h.nodup_images
  blocks := List.forall_mem_map.mpr fun b hb => (h.blocks b hb).restrict r

/-! ### Restricted profiles -/

/-- Ordering by slot commutes with whatever keeps slots. -/
lemma sortBySlot_map {α β : Type} {slot : α → Nat} {slot' : β → Nat} {g : α → β}
    (h : ∀ a, slot' (g a) = slot a) (as : List α) :
    sortBySlot slot' (as.map g) = (sortBySlot slot as).map g := by
  refine (List.map_mergeSort fun a _ b _ => ?_).symm
  rw [h, h]

def BlockProfile.restrict (p : BlockProfile) : BlockProfile :=
  { p with uniforms := p.uniforms.map (Uniform.restrict r p.name) }

def InterfaceProfile.restrict (p : InterfaceProfile) : InterfaceProfile :=
  { p with blocks := p.blocks.map (BlockProfile.restrict r) }

def EditionProfile.restrict (p : EditionProfile) : EditionProfile :=
  { p with
    programs := p.programs.map
      (Prod.map (InterfaceProfile.restrict r) (InterfaceProfile.restrict r))
    blocks := p.blocks.map (BlockProfile.restrict r) }

lemma blockProfiles_restrict (bs : List Block) :
    blockProfiles (bs.map (Block.restrict r)) =
      (blockProfiles bs).map (BlockProfile.restrict r) := by
  have hslot : ∀ p, (BlockProfile.restrict r p).slot = p.slot := fun _ => rfl
  rw [blockProfiles, blockProfiles, ← sortBySlot_map hslot, List.map_map, List.map_map]
  rfl

lemma Interface.profile_restrict (i : Interface) :
    (i.restrict r).profile = i.profile.restrict r := by
  simp only [profile, InterfaceProfile.restrict, ← blockProfiles_restrict]
  rfl

/-! ### Restricted bindings -/

def SlotTable.restrict (t : SlotTable Block) : SlotTable Block :=
  { t with holders := t.holders.map (Block.restrict r) }

def Bindings.restrict (b : Bindings) : Bindings :=
  { b with blocks := b.blocks.restrict r }

namespace SlotTable

variable {t t' : SlotTable Block}

lemma holder?_restrict (t : SlotTable Block) (slot : Nat) :
    (t.restrict r).holder? slot = (t.holder? slot).map (Block.restrict r) := by
  rw [holder?, restrict, List.find?_map]
  rfl

lemma named?_restrict (t : SlotTable Block) (name : String) :
    (t.restrict r).named? name = (t.named? name).map (Block.restrict r) := by
  rw [named?, restrict, List.find?_map]
  rfl

/-- Blocks claim slots by slot and name alone. -/
lemma claim_restrict {b : Block} (h : t.claim b = .ok t') :
    (t.restrict r).claim (b.restrict r) = .ok (t'.restrict r) := by
  have hslot : (t.restrict r).holder? (Resource.slot (b.restrict r)) =
      (t.holder? (Resource.slot b)).map (Block.restrict r) := t.holder?_restrict r _
  have hname : (t.restrict r).named? (Resource.name (b.restrict r)) =
      (t.named? (Resource.name b)).map (Block.restrict r) := t.named?_restrict r _
  apply claim_eq_ok_iff.mpr
  rw [hslot, hname]
  rcases claim_eq_ok_iff.mp h with ⟨first, hfirst, rfl⟩ | ⟨hfree, hunnamed, rfl⟩
  · exact .inl ⟨first.restrict r, by rw [hfirst, Option.map_some], rfl⟩
  · refine .inr ⟨by rw [hfree, Option.map_none], by rw [hunnamed, Option.map_none], ?_⟩
    simp [restrict]

lemma foldlM_claim_restrict {bs : List Block} (h : bs.foldlM claim t = .ok t') :
    (bs.map (Block.restrict r)).foldlM claim (t.restrict r) = .ok (t'.restrict r) := by
  induction bs generalizing t with
  | nil =>
    obtain rfl := pure_eq_ok_iff.mp h
    rfl
  | cons b bs ih =>
    rw [List.foldlM_cons] at h
    obtain ⟨t₁, hclaim, hrest⟩ := bind_eq_ok_iff.mp h
    rw [List.map_cons, List.foldlM_cons]
    exact bind_eq_ok_iff.mpr ⟨t₁.restrict r, claim_restrict r hclaim, ih hrest⟩

end SlotTable

/-! ### Restricted editions -/

/-- A stage that has been restricted. -/
def Interface.Restricts (i j : Interface) : Prop :=
  j = i.restrict r

variable {r} {f : ShaderFile} {cs : Compilations} {o : Options}

lemma Interface.Restricts.sameDescription {i j : Interface} (h : i.Restricts r j) :
    i.SameDescription j := by
  subst h
  refine ⟨rfl, rfl, rfl, rfl, fun slot => ?_, fun _ => rfl⟩
  rw [block?, block?, restrict, List.find?_map, Option.bind_map]
  rfl

/-- The guide names uniforms and does not tell their types. -/
lemma Block.guide_restrict (qualifier : String) (b : Block) :
    (b.restrict r).guide qualifier = b.guide qualifier := by
  have hnames : (b.restrict r).uniforms.map Uniform.name = b.uniforms.map Uniform.name := by
    rw [restrict, List.map_map]
    exact List.map_congr_left fun u _ => u.name_restrict r b.name
  simp only [guide, hnames]
  rfl

lemma map_guide_restrict (qualifier : String) (bs : List Block) :
    (bs.map (Block.restrict r)).map (Block.guide qualifier) = bs.map (Block.guide qualifier) := by
  rw [List.map_map]
  exact List.map_congr_left fun b _ => b.guide_restrict qualifier

lemma Interface.Restricts.guide_eq {i j : Interface} (h : i.Restricts r j)
    (qualifier snippet : String) : i.guide qualifier snippet = j.guide qualifier snippet := by
  subst h
  simp only [guide, restrict, map_guide_restrict]

lemma Compilation.varies_restrict (c : Compilation) :
    c.Varies (Interface.Restricts r) (c.restrict r) := by
  refine ⟨List.forall₂_map_right_iff.mpr ?_, rfl⟩
  exact List.forall₂_same.mpr fun s _ => ⟨rfl, rfl, rfl⟩

lemma Bindings.ofCompilation?_restrict {c : Compilation} {b : Bindings}
    (h : ofCompilation? f c = .ok b) : ofCompilation? f (c.restrict r) = .ok (b.restrict r) := by
  obtain ⟨himages, hblocks⟩ := ofCompilation?_eq_ok_iff.mp h
  have himages' : (c.restrict r).images = c.images := by
    rw [Compilation.images, Compilation.restrict, List.flatMap_map]
    rfl
  have hblocks' : (c.restrict r).blocks = c.blocks.map (Block.restrict r) := by
    rw [Compilation.blocks, Compilation.restrict, List.flatMap_map, Compilation.blocks,
      List.map_flatMap]
    rfl
  apply ofCompilation?_eq_ok_iff.mpr
  rw [himages', hblocks']
  exact ⟨himages, SlotTable.foldlM_claim_restrict r hblocks⟩

namespace Edition

/-- The edition of a restricted compilation. -/
structure Restricts (r : Restriction) (e e' : Edition) : Prop
    extends e.Varies (Interface.Restricts r) e' where
  bindings : e'.bindings = e.bindings.restrict r

variable {d : Dialect} {e e' : Edition}

/-- A restricted compilation still has an edition. -/
lemma exists_restricts (r : Restriction) (he : Edition.check? f d cs = .ok e) :
    ∃ e', Edition.check? f d (cs.restrict r) = .ok e' ∧ e.Restricts r e' := by
  obtain ⟨-, hc, -, hsources, -, -, hbindings⟩ := check?_eq_ok_iff.mp he
  have hc' : cs.restrict r d = some (e.compilation.restrict r) := by
    rw [Compilations.restrict, hc, Option.map_some]
  have hsources' : ∀ s ∈ (e.compilation.restrict r).sources, checkSource f s = .ok () := by
    intro s' hs'
    obtain ⟨s, hs, rfl⟩ := List.mem_map.mp hs'
    apply checkSource_eq_ok_iff_isWellFormed.mpr
    exact (checkSource_eq_ok_iff_isWellFormed.mp (hsources s hs)).restrict r
  obtain ⟨e', he', hvaries, hb⟩ := exists_check?_of_varies Interface.Restricts.sameDescription he
    hc' e.compilation.varies_restrict hsources' (Bindings.ofCompilation?_restrict hbindings)
  exact ⟨e', he', hvaries, hb⟩

lemma Restricts.profile_eq (h : e.Restricts r e') : e'.profile = e.profile.restrict r := by
  have hprograms : e'.programs.map LinkedProgram.profile =
      (e.programs.map LinkedProgram.profile).map
        (Prod.map (InterfaceProfile.restrict r) (InterfaceProfile.restrict r)) := by
    rw [List.map_map, eq_comm]
    refine map_eq_of_forall₂ h.programs fun p q hpq => ?_
    have hvertex : q.vertex.source.interface = p.vertex.source.interface.restrict r :=
      (hpq.stage .vertex).source.interface
    have hfragment : q.fragment.source.interface = p.fragment.source.interface.restrict r :=
      (hpq.stage .fragment).source.interface
    simp only [LinkedProgram.profile, hvertex, hfragment, Interface.profile_restrict]
    rfl
  simp only [profile, hprograms, h.bindings, EditionProfile.restrict, ← blockProfiles_restrict]
  rfl

/-- The guide does not change. -/
lemma Restricts.guide_eq (h : e.Restricts r e') (version : Nat) :
    Guide.ofEdition f version e = Guide.ofEdition f version e' := by
  have hprograms : e.programs.map (LinkedProgram.guide f.qualifier) =
      e'.programs.map (LinkedProgram.guide f.qualifier) := by
    refine map_eq_of_forall₂ h.programs fun p q hpq => ?_
    have hvertex : p.vertex.Varies (Interface.Restricts r) q.vertex := hpq.stage .vertex
    have hfragment : p.fragment.Varies (Interface.Restricts r) q.fragment := hpq.stage .fragment
    have hinputs := hvertex.source.interface.sameDescription.inputs
    simp only [LinkedProgram.guide, hpq.program, hvertex.snippet, Interface.locations, hinputs,
      hvertex.source.interface.guide_eq, hfragment.source.interface.guide_eq]
  have hinputs : vertexInputs f e.compilation = vertexInputs f e'.compilation :=
    h.compilation.vertexInputs_eq Interface.Restricts.sameDescription
  simp only [Guide.ofEdition, hprograms, hinputs, h.bindings, Bindings.restrict, SlotTable.restrict,
    map_guide_restrict]
  rfl

end Edition

/-! ### Restricted structs -/

/-- The offsets of a struct and of the struct of the restricted block: every uniform that keeps its
type has the same field in both of them, and a C compiler puts it at the same offset. -/
structure HostStruct.KeepsOffsets (r : Restriction) (types : NameTable String) (b : Block)
    (s s' : HostStruct) : Prop where
  members : ∀ u ∈ b.uniforms, r b.name u.name u.type = false →
    u.field types ∈ s.members ∧ u.field types ∈ s'.members
  fields? : ∀ sizeOf : String → Nat, sizeOf "uint8_t" = 1 → sizeOf "float" = 4 →
    (∀ u ∈ b.uniforms, u.type ≠ .unsupported → u.IsDeclarable types sizeOf) →
      s.fields? sizeOf = some ((b.uniforms.filter fun u => u.type ≠ .unsupported).map
        fun u => (u.name, u.offset, u.type.size * u.count)) ∧
      s'.fields? sizeOf = some ((b.uniforms.filter fun u => u.type ≠ .unsupported ∧
        r b.name u.name u.type = false).map fun u => (u.name, u.offset, u.type.size * u.count))

lemma field_mem_membersFrom (types : NameTable String) (cursor : Nat) {us : List Uniform}
    {u : Uniform} (hu : u ∈ us) : u.field types ∈ membersFrom types cursor us := by
  induction us generalizing cursor with
  | nil => cases hu
  | cons v us ih =>
    rw [membersFrom, List.mem_append, List.mem_cons]
    rcases List.mem_cons.mp hu with rfl | hu
    · exact .inr (.inl rfl)
    · exact .inr (.inr (ih _ hu))

/-- The uniforms that still have a type are those that had one and keep it. -/
lemma Block.map_filter_restrict {α : Type} (b : Block) (g : Uniform → α) :
    ((b.restrict r).uniforms.filter fun u => u.type ≠ .unsupported).map g =
      (b.uniforms.filter fun u =>
        u.type ≠ .unsupported ∧ r b.name u.name u.type = false).map g := by
  have hfilter : b.uniforms.filter
        ((fun u => decide (u.type ≠ .unsupported)) ∘ Uniform.restrict r b.name) =
      b.uniforms.filter fun u => u.type ≠ .unsupported ∧ r b.name u.name u.type = false := by
    refine List.filter_congr fun u _ => ?_
    rw [Function.comp_apply, decide_eq_decide]
    exact Uniform.type_restrict_ne_iff
  rw [restrict, List.filter_map, List.map_map, hfilter]
  refine List.map_congr_left fun u hu => ?_
  obtain ⟨-, hu⟩ := List.mem_filter.mp hu
  rw [Function.comp_apply, Uniform.restrict_of_kept (of_decide_eq_true hu).2]

namespace HostStruct

variable {types : NameTable String} {b : Block} {s s' : HostStruct}

lemma field_mem_members (hs : ofBlock? types b = .ok s) {u : Uniform} (hu : u ∈ b.uniforms) :
    u.field types ∈ s.members := by
  rw [members_eq hs]
  exact List.mem_append_left _ (field_mem_membersFrom types 0 hu)

lemma keepsOffsets (hs : ofBlock? types b = .ok s) (hs' : ofBlock? types (b.restrict r) = .ok s') :
    KeepsOffsets r types b s s' where
  members := by
    intro u hu hkept
    have hu' : u ∈ (b.restrict r).uniforms :=
      List.mem_map.mpr ⟨u, hu, Uniform.restrict_of_kept hkept⟩
    exact ⟨field_mem_members hs hu, field_mem_members hs' hu'⟩
  fields? := by
    intro sizeOf hbyte hfloat hdeclarable
    refine ⟨fields?_of_ofBlock? hs hdeclarable hbyte hfloat, ?_⟩
    rw [fields?_of_ofBlock? hs' ?_ hbyte hfloat, Block.map_filter_restrict]
    intro u' hu' htype
    obtain ⟨u, hu, rfl⟩ := List.mem_map.mp hu'
    obtain ⟨htype, hkept⟩ := Uniform.type_restrict_ne_iff.mp htype
    rw [Uniform.restrict_of_kept hkept]
    exact hdeclarable u hu htype

end HostStruct

/-! ### Restricted headers -/

/-- The openings of a header and of the restricted one, whose first editions declare some blocks.
Guide and constants are the same and the structs keep their offsets. Each marker comes with a
warning for its uniform. -/
structure Opening.Restricts (r : Restriction) (types : NameTable String) (bs : List Block)
    (a a' : Opening) : Prop where
  guide : a.guide = a'.guide
  fileName : a.fileName = a'.fileName
  qualifier : a.declarations.qualifier = a'.declarations.qualifier
  locations : a.declarations.locations = a'.declarations.locations
  images : a.declarations.images = a'.declarations.images
  structs : List.Forall₂ (fun b s => HostStruct.ofBlock? types b = .ok s) bs a.declarations.structs
  restricted : List.Forall₂ (fun b s => HostStruct.ofBlock? types (b.restrict r) = .ok s ∧
    s.warnings = (b.restrict r).warnings ∧
    (s.lines a'.declarations.qualifier).filter (· = unsupportedMarker) =
      s.warnings.map fun _ => unsupportedMarker) bs a'.declarations.structs
  offsets : ∀ b ∈ bs, ∀ s s', HostStruct.ofBlock? types b = .ok s →
    HostStruct.ofBlock? types (b.restrict r) = .ok s' → HostStruct.KeepsOffsets r types b s s'
  warnings : a'.declarations.warnings = bs.flatMap fun b => (b.restrict r).warnings
  markers : a'.declarations.lines.filter (· = unsupportedMarker) =
    a'.declarations.warnings.map fun _ => unsupportedMarker

lemma Opening.restricts_of_ofEdition? {e e' : Edition} (h : e.Restricts r e') {a a' : Opening}
    (ha : Opening.ofEdition? f o e = .ok a) (ha' : Opening.ofEdition? f o e' = .ok a') :
    a.Restricts r f.types e.bindings.blocks.holders a' := by
  obtain ⟨hguide, hdeclarations, hfileName⟩ := ofEdition?_eq_ok_iff.mp ha
  obtain ⟨hguide', hdeclarations', hfileName'⟩ := ofEdition?_eq_ok_iff.mp ha'
  obtain ⟨hqualifier, hlocations, himages, hstructs⟩ :=
    Declarations.ofEdition?_eq_ok_iff.mp hdeclarations
  obtain ⟨hqualifier', hlocations', himages', hstructs'⟩ :=
    Declarations.ofEdition?_eq_ok_iff.mp hdeclarations'
  have hrestricted : List.Forall₂ (fun b s => HostStruct.ofBlock? f.types (b.restrict r) = .ok s)
      e.bindings.blocks.holders a'.declarations.structs := by
    rw [h.bindings] at hstructs'
    exact List.forall₂_map_left_iff.mp hstructs'
  exact {
    guide := by rw [hguide, hguide', h.guide_eq]
    fileName := by rw [hfileName, hfileName']
    qualifier := by rw [hqualifier, hqualifier']
    locations := by
      rw [hlocations, hlocations',
        h.compilation.locationConstants_eq Interface.Restricts.sameDescription]
    images := by
      rw [himages, himages', h.bindings]
      rfl
    structs := hstructs
    restricted := hrestricted.imp fun b s hs =>
      ⟨hs, HostStruct.warnings_of_ofBlock? hs, s.markers_lines _⟩
    offsets := fun b _ s s' hs hs' => HostStruct.keepsOffsets hs hs'
    warnings := by
      rw [Declarations.warnings, List.flatMap_def, List.flatMap_def]
      refine congrArg List.flatten (map_eq_of_forall₂ hrestricted fun b s hs => ?_).symm
      exact (HostStruct.warnings_of_ofBlock? hs).symm
    markers := a'.declarations.markers_lines }

namespace Header

/-- Uniforms may lose their types, and a header can still be made. Its guide and its constants, its
sections and accessors are the same, and uniforms that keep their types stay at their offsets. The
header comes with a warning for every uniform of a declared block that has no type, and these
warnings stand in the order of the markers. -/
theorem make?_restrict {h : Header} (hmake : make? f cs o = .ok h) (r : Restriction) :
    ∃ h', make? f (cs.restrict r) o = .ok h' ∧ h'.sections = h.sections ∧
      h'.accessors = h.accessors ∧ (h.opening = none → h' = h) ∧
      ∀ a ∈ h.opening, ∃ a' ∈ h'.opening, ∃ first, IsFirstEdition f cs o first ∧
        a.Restricts r f.types first.bindings.blocks.holders a' ∧
        h'.warnings = first.bindings.shadowed ++
          first.bindings.blocks.holders.flatMap fun b => (b.restrict r).warnings := by
  obtain ⟨es, hmade⟩ := exists_madeFrom hmake
  obtain ⟨h', es', hmake', hmade', hes⟩ := hmade.exists_counterpart_header
    (fun d e he => Edition.exists_restricts r he)
    (fun ha hb heq => by rw [ha.profile_eq, hb.profile_eq, heq])
  have hsections := hmade.sections_eq Interface.Restricts.sameDescription hmade'
    (hes.imp fun _ _ he => he.toVaries)
  have haccessors := hmade.accessors.trans hmade'.accessors.symm
  refine ⟨h', hmake', hsections.symm, haccessors.symm, ?_⟩
  cases hes with
  | nil =>
    refine ⟨fun _ => (hmade.eq_of_nil hmake hmake').symm, fun a ha => ?_⟩
    rw [hmade.opening_eq_none] at ha
    cases ha
  | cons hfirst _ =>
    -- with dialects, the openings are those of the first editions
    obtain ⟨a, ha, hopening, hcheck, -⟩ := hmade.exists_opening_of_cons
    obtain ⟨a', ha', hopening', -, hwarnings'⟩ := hmade'.exists_opening_of_cons
    have hrestricts := Opening.restricts_of_ofEdition? hfirst hopening hopening'
    rw [ha]
    constructor
    · intro hnone
      cases hnone
    · rintro _ ⟨⟩
      refine ⟨a', ha', _, hcheck, hrestricts, ?_⟩
      rw [hwarnings', hrestricts.warnings, hfirst.bindings]
      rfl

end Header

namespace Sample

/-- Pairs are not supported. -/
def withoutPairs : Restriction :=
  fun _ _ type => type = .float2

def params : Block :=
  ⟨"params", 0, 12, [⟨"offset", .float2, 0, 1⟩, ⟨"scale", .float, 8, 1⟩]⟩

/-- One uniform of the small file is a pair, and the other one stays where it is. -/
theorem make?_restrict_of_withoutPairs :
    ∃ h h', Header.make? file compilations options = .ok h ∧
      Header.make? file (compilations.restrict withoutPairs) options = .ok h' ∧
      h'.sections = h.sections ∧ h'.warnings = [.unsupported "params" "offset"] ∧
      ∃ a ∈ h'.opening, a.declarations.structs.map (HostStruct.fields? lightSizes) =
        [some [("scale", 8, 4)]] := by
  obtain ⟨h, hmake⟩ := exists_header
  obtain ⟨es, hmade⟩ := Header.exists_madeFrom hmake
  obtain ⟨e, he, -⟩ := hmade.exists_edition (d := .glsl330) (by decide)
  obtain ⟨-, -, -, a, ha, -⟩ := hmade.exists_first (List.ne_nil_of_mem he)
  obtain ⟨h', hmake', hsections, -, -, hopening⟩ := Header.make?_restrict hmake withoutPairs
  obtain ⟨a', ha', first, ⟨d, hd, hcheck⟩, hrestricts, hwarnings⟩ := hopening a ha
  obtain rfl : Dialect.glsl330 = d := Option.some.inj hd
  obtain ⟨first', hfirst', hbindings⟩ : ∃ e, Edition.check? file .glsl330 compilations = .ok e ∧
      (e.bindings.shadowed, e.bindings.blocks.holders) = ([], [params]) :=
    exists_of_map_toOption (by decide +kernel)
  obtain rfl : first = first' := Except.ok.inj (hcheck.symm.trans hfirst')
  obtain ⟨hshadowed, hholders⟩ := Prod.mk.inj hbindings
  refine ⟨h, h', hmake, hmake', hsections, ?_, a', ha', ?_⟩
  · rw [hwarnings, hshadowed, hholders]
    decide
  · -- `scale` is declarable and not restricted, so it keeps its offset
    have hdeclarable : ∀ u ∈ params.uniforms, u.type ≠ .unsupported →
        u.IsDeclarable file.types lightSizes := by
      simp only [params, List.forall_mem_cons]
      refine ⟨fun _ => ⟨by decide, by decide, ?_, ?_⟩, fun _ => ⟨by decide, by decide, ?_, ?_⟩,
        by simp⟩
      all_goals rintro _ ⟨⟩
    have hstructs := hrestricts.structs
    have hrestricted := hrestricts.restricted
    have hoffsets := hrestricts.offsets
    rw [hholders] at hstructs hrestricted hoffsets
    obtain ⟨s, _, hs, -, -⟩ := List.forall₂_cons_left_iff.mp hstructs
    obtain ⟨s', _, ⟨hs', -⟩, hnil, hstructs'⟩ := List.forall₂_cons_left_iff.mp hrestricted
    obtain rfl := List.forall₂_nil_left_iff.mp hnil
    have hkeeps := hoffsets params List.mem_cons_self s s' hs hs'
    rw [hstructs', List.map_singleton, (hkeeps.fields? lightSizes rfl rfl hdeclarable).2]
    decide

end Sample

end ShaderHeader
