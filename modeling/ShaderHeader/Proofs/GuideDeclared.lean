import ShaderHeader.Proofs.ConstantNames
import ShaderHeader.Proofs.GuideEntries
import ShaderHeader.Proofs.Identifiers
import ShaderHeader.Proofs.Locations
import ShaderHeader.Proofs.SharedStructs

/-!
# Listed and declared

The guide lists what the stages of each program have, while declarations are made for the holders of
slots and for the inputs of vertex stages. So what is listed is declared, but for resources that
have lost their slots, of which there are warnings, and for the inputs of a vertex snippet that has
been compiled as another stage.
-/

namespace ShaderHeader

open Check Reading

variable {f : ShaderFile} {cs : Compilations} {o : Options} {h : Header} {s : Opening}

/-! ### Entries -/

/-- An entry is declared in some lines: they define the constant with its value, or the struct. -/
def GuideEntry.DeclaredIn (lines : List String) : GuideEntry → Prop
  | constant k  => k.line ∈ lines
  | struct name => name ∈ lines.filterMap identifier?

/-- What is listed although it is not declared, as a warning says. -/
def Warning.lost (qualifier : String) : Warning → List GuideEntry
  | shadowed .block name slot _ =>
    [.struct (Naming.struct qualifier name), .constant ⟨Naming.slot qualifier name, slot⟩]
  | shadowed .image name slot _ => [.constant ⟨Naming.slot qualifier name, slot⟩]
  | unsupported _ _             => []

lemma isListed_location (qualifier snippet input : String) :
    IsListed (Naming.location qualifier snippet input).toList := by
  simp [IsListed, Naming.location]

lemma isListed_slot (qualifier resource : String) :
    IsListed (Naming.slot qualifier resource).toList := by
  simp [IsListed, Naming.slot]

lemma Interface.exists_location {qualifier snippet : String} {i : Interface} {k : Constant}
    (hk : k ∈ i.locations qualifier snippet) :
    ∃ input, k.name = Naming.location qualifier snippet input := by
  obtain ⟨a, -, ha⟩ := List.mem_filterMap.mp hk
  obtain ⟨slot, -, rfl⟩ := Option.map_eq_some_iff.mp ha
  exact ⟨a.name, rfl⟩

lemma Interface.isReadable_guide {qualifier snippet : String} (i : Interface) :
    ∀ x ∈ (i.guide qualifier snippet).entries, x.IsReadable := by
  simp only [StageGuide.entries, guide, List.forall_mem_append, List.forall_mem_flatMap,
    List.forall_mem_map]
  constructor
  · intro b _
    simp only [BlockGuide.entries, List.forall_mem_cons]
    exact ⟨⟨qualifier ++ b.name, rfl⟩, isListed_slot _ _, by simp⟩
  · intro m _
    exact isListed_slot _ _

lemma Guide.isReadable_ofEdition (version : Nat) (e : Edition) :
    ∀ x ∈ (Guide.ofEdition f version e).entries, x.IsReadable := by
  simp only [entries, ofEdition, List.forall_mem_append, List.forall_mem_flatMap,
    List.forall_mem_map]
  constructor
  · intro p _
    simp only [ProgramGuide.entries, LinkedProgram.guide, List.forall_mem_append,
      List.forall_mem_map]
    refine ⟨⟨fun k hk => ?_, Interface.isReadable_guide _⟩, Interface.isReadable_guide _⟩
    obtain ⟨input, hname⟩ := Interface.exists_location hk
    exact (hname ▸ isListed_location _ _ _ : IsListed k.name.toList)
  · intro k hk
    obtain ⟨m, -, rfl⟩ := List.mem_map.mp hk
    exact isListed_slot _ _

/-! ### Resources that have lost their slots -/

namespace SlotTable.Merges

variable {α : Type} [Resource α] {t : SlotTable α} {rs : List α}

/-- A resource has the constant of its slot unless there is a warning about it. -/
lemma slotConstant_mem_or (h : t.Merges rs) (qualifier : String) {r : α} (hr : r ∈ rs) :
    slotConstant qualifier r ∈ t.holders.map (slotConstant qualifier) ∨
      ∃ holder, .shadowed (Resource.kind α) (Resource.name r) (Resource.slot r) holder ∈
        t.shadowed := by
  obtain ⟨first, hfirst, hslot, hname | hlost⟩ := h.exists_holder hr
  · refine .inl (List.mem_map.mpr ⟨first, hfirst, ?_⟩)
    rw [slotConstant, slotConstant, hname, slot_of_firstOn? hslot]
  · exact .inr ⟨_, hlost⟩

/-- What a warning is about has lost its slot to another name. -/
lemma exists_of_shadowed (h : t.Merges rs) {kind : ResourceKind} {name holder : String}
    {slot : Nat} (hw : .shadowed kind name slot holder ∈ t.shadowed) :
    kind = Resource.kind α ∧ ∃ first, firstOn? rs slot = some first ∧
      Resource.name first ≠ name := by
  rw [h.shadowed_eq] at hw
  obtain ⟨r, -, hr⟩ := List.mem_flatMap.mp hw
  rw [losses] at hr
  split at hr
  · next first hfirst =>
    rw [shadowing] at hr
    split_ifs at hr with hname
    · cases hr
    · obtain ⟨rfl, rfl, rfl, rfl⟩ := Warning.shadowed.inj (List.mem_singleton.mp hr)
      exact ⟨rfl, first, hfirst, hname⟩
  · cases hr

/-- So the constants of slots do not include the one that it would have. -/
lemma notMem_of_shadowed (h : t.Merges rs) (qualifier : String) {kind : ResourceKind}
    {name holder : String} {slot : Nat} (hw : .shadowed kind name slot holder ∈ t.shadowed) :
    ⟨Naming.slot qualifier name, slot⟩ ∉ t.holders.map (slotConstant qualifier) := by
  obtain ⟨-, first, hfirst, hname⟩ := h.exists_of_shadowed hw
  intro hmem
  obtain ⟨r, hr, hconstant⟩ := List.mem_map.mp hmem
  obtain ⟨hrname, rfl⟩ := Constant.mk.inj hconstant
  have hsame := (h.mem_holders_iff.mp hr).symm.trans hfirst
  exact hname (Option.some.inj hsame ▸ Naming.slot_eq_iff.mp hrname)

end SlotTable.Merges

/-! ### First editions -/

namespace Declarations

variable {e : Edition} {ds : Declarations}

lemma declaredIn_of_mem {k : Constant} (hk : k ∈ ds.constants) :
    GuideEntry.DeclaredIn ds.lines (.constant k) :=
  line_mem_lines hk

/-- A block that holds a slot has a struct. -/
lemma declaredIn_struct (h : ofEdition? f e = .ok ds) {b : Block}
    (hb : b ∈ e.bindings.blocks.holders) :
    GuideEntry.DeclaredIn ds.lines (.struct (Naming.struct f.qualifier b.name)) := by
  obtain ⟨hqualifier, -⟩ := ofEdition?_eq_ok_iff.mp h
  have hname : b.name ∈ ds.structs.map HostStruct.block :=
    map_block_structs h ▸ List.mem_map_of_mem hb
  obtain ⟨struct, hstruct, hblock⟩ := List.mem_map.mp hname
  rw [GuideEntry.DeclaredIn, filterMap_identifier?_lines, identifiers, hqualifier, ← hblock]
  exact List.mem_map_of_mem hstruct

end Declarations

/-- The warnings about resources that have lost their slots are those of the two tables. -/
lemma Header.shadowed_mem_iff {e : Edition} {ds : Declarations} (hbindings :
    Bindings.ofCompilation? f e.compilation = .ok e.bindings) {kind : ResourceKind}
    {name holder : String} {slot : Nat} :
    .shadowed kind name slot holder ∈ e.bindings.shadowed ++ ds.warnings ↔
      .shadowed kind name slot holder ∈
        match kind with
        | .image => e.bindings.images.shadowed
        | .block => e.bindings.blocks.shadowed := by
  have hstructs : .shadowed kind name slot holder ∉ ds.warnings := by
    intro hw
    obtain ⟨struct, -, hw⟩ := List.mem_flatMap.mp hw
    obtain ⟨m, -, hm⟩ := List.mem_filterMap.mp hw
    split at hm <;> cases hm
  simp only [Bindings.shadowed, List.mem_append, hstructs, or_false]
  cases kind with
  | image =>
    refine or_iff_left fun hw => ?_
    cases ((Bindings.merges_blocks hbindings).exists_of_shadowed hw).1
  | block =>
    refine or_iff_right fun hw => ?_
    cases ((Bindings.merges_images hbindings).exists_of_shadowed hw).1

/-- An entry is declared, or a warning says that it is lost. -/
def GuideEntry.DeclaredOrLost (qualifier : String) (lines : List String) (ws : List Warning)
    (x : GuideEntry) : Prop :=
  x.DeclaredIn lines ∨ ∃ w ∈ ws, x ∈ w.lost qualifier

namespace Edition

variable {d : Dialect} {e : Edition} {ds : Declarations} {source : Source}

lemma block_declaredOrLost (hcheck : Edition.check? f d cs = .ok e)
    (h : Declarations.ofEdition? f e = .ok ds) (hsource : source ∈ e.compilation.sources)
    {b : Block} (hb : b ∈ source.interface.blocks) :
    ∀ x ∈ (b.guide f.qualifier).entries,
      x.DeclaredOrLost f.qualifier ds.lines (e.bindings.shadowed ++ ds.warnings) := by
  obtain ⟨-, -, -, -, -, -, hbindings⟩ := Edition.check?_eq_ok_iff.mp hcheck
  have hmem : b ∈ e.compilation.blocks := List.mem_flatMap.mpr ⟨source, hsource, hb⟩
  simp only [BlockGuide.entries, Block.guide, List.forall_mem_cons]
  rcases (Bindings.merges_blocks hbindings).slotConstant_mem_or f.qualifier hmem with
    hdeclared | ⟨holder, hlost⟩
  · -- the constant is declared, for this block or for one of its name
    obtain ⟨first, hfirst, hconstant⟩ := List.mem_map.mp hdeclared
    have hname : first.name = b.name := Naming.slot_eq_iff.mp (Constant.mk.inj hconstant).1
    refine ⟨.inl (hname ▸ Declarations.declaredIn_struct h hfirst),
      .inl (Declarations.declaredIn_of_mem ?_), by simp⟩
    rw [Declarations.constants, Declarations.blocks_eq h]
    exact List.mem_append_right _ hdeclared
  · -- the slot belongs to another block: constant and struct are lost with a warning
    have hwarning : .shadowed .block b.name b.slot holder ∈ e.bindings.shadowed ++ ds.warnings :=
      (Header.shadowed_mem_iff hbindings).mpr hlost
    refine ⟨.inr ⟨_, hwarning, ?_⟩, .inr ⟨_, hwarning, ?_⟩, by simp⟩
    · exact List.mem_cons_self
    · exact List.mem_cons_of_mem _ List.mem_cons_self

lemma image_declaredOrLost (hcheck : Edition.check? f d cs = .ok e)
    (h : Declarations.ofEdition? f e = .ok ds) (hsource : source ∈ e.compilation.sources)
    {m : Image} (hm : m ∈ source.interface.images) :
    GuideEntry.DeclaredOrLost f.qualifier ds.lines (e.bindings.shadowed ++ ds.warnings)
      (.constant (slotConstant f.qualifier m)) := by
  obtain ⟨-, -, -, -, -, -, hbindings⟩ := Edition.check?_eq_ok_iff.mp hcheck
  obtain ⟨-, -, himages, -⟩ := Declarations.ofEdition?_eq_ok_iff.mp h
  have hmem : m ∈ e.compilation.images := List.mem_flatMap.mpr ⟨source, hsource, hm⟩
  rcases (Bindings.merges_images hbindings).slotConstant_mem_or f.qualifier hmem with
    hdeclared | ⟨holder, hlost⟩
  · refine .inl (Declarations.declaredIn_of_mem ?_)
    rw [Declarations.constants, himages]
    exact List.mem_append_left _ (List.mem_append_right _ hdeclared)
  · have hwarning : .shadowed .image m.name m.slot holder ∈ e.bindings.shadowed ++ ds.warnings :=
      (Header.shadowed_mem_iff hbindings).mpr hlost
    exact .inr ⟨_, hwarning, List.mem_cons_self⟩

/-- What is listed for a stage. -/
lemma stage_declaredOrLost (hcheck : Edition.check? f d cs = .ok e)
    (h : Declarations.ofEdition? f e = .ok ds) (hsource : source ∈ e.compilation.sources)
    (snippet : String) :
    ∀ x ∈ (source.interface.guide f.qualifier snippet).entries,
      x.DeclaredOrLost f.qualifier ds.lines (e.bindings.shadowed ++ ds.warnings) := by
  simp only [StageGuide.entries, Interface.guide, List.forall_mem_append, List.forall_mem_flatMap,
    List.forall_mem_map]
  exact ⟨fun b hb => block_declaredOrLost hcheck h hsource hb,
    fun m hm => image_declaredOrLost hcheck h hsource hm⟩

/-- What is listed for a program. -/
lemma program_declaredOrLost (hcheck : Edition.check? f d cs = .ok e)
    (h : Declarations.ofEdition? f e = .ok ds) {p : LinkedProgram} (hp : p ∈ e.programs) :
    ∀ x ∈ (p.guide f.qualifier).entries,
      x.DeclaredOrLost f.qualifier ds.lines (e.bindings.shadowed ++ ds.warnings) ∨
        p.vertex.source.interface.stage ≠ .vertex ∧
          x ∈ (p.guide f.qualifier).locations.map .constant := by
  have hstage : ∀ stage snippet,
      ∀ x ∈ ((p.stage stage).source.interface.guide f.qualifier snippet).entries,
        x.DeclaredOrLost f.qualifier ds.lines (e.bindings.shadowed ++ ds.warnings) :=
    fun stage snippet =>
      stage_declaredOrLost hcheck h (source_mem_of_mem_programs hcheck hp stage) snippet
  simp only [ProgramGuide.entries, List.forall_mem_append]
  refine ⟨⟨fun x hx => ?_, fun x hx => .inl (hstage .vertex _ x hx)⟩,
    fun x hx => .inl (hstage .fragment _ x hx)⟩
  by_cases hvertex : p.vertex.source.interface.stage = .vertex
  · obtain ⟨k, hk, rfl⟩ := List.mem_map.mp hx
    obtain ⟨-, hlocations, -⟩ := Declarations.ofEdition?_eq_ok_iff.mp h
    refine .inl (.inl (Declarations.declaredIn_of_mem ?_))
    rw [Declarations.constants, hlocations]
    refine List.mem_append_left _ (List.mem_append_left _ ?_)
    exact ShaderHeader.mem_locationConstants (source_mem_of_mem_programs hcheck hp .vertex) hvertex
      (snippet_of_mem_programs hcheck hp .vertex) hk
  · exact .inr ⟨hvertex, hx⟩

end Edition

/-! ### Headers -/

/-- What the guide of a header lists is declared with the same values. The exceptions are resources
that have lost their slots, with a warning, and inputs of a program whose vertex snippet has been
compiled as another stage. No constant of a slot is declared for a resource that has lost it. -/
theorem Header.guide_entries_declared (hmake : make? f cs o = .ok h) (hs : s ∈ h.opening) :
    s.guide.lines.filterMap listed? = s.guide.entries ∧ s.declarations.lines <:+: h.lines ∧
      (∃ first, IsFirstEdition f cs o first ∧
        s.guide.programs = first.programs.map (LinkedProgram.guide f.qualifier) ∧
        ∀ x ∈ s.guide.entries,
          x.DeclaredOrLost f.qualifier s.declarations.lines h.warnings ∨
            ∃ p ∈ first.programs, p.vertex.source.interface.stage ≠ .vertex ∧
              x ∈ (p.guide f.qualifier).locations.map .constant) ∧
      ∀ name slot holder,
        (.shadowed .image name slot holder ∈ h.warnings →
          ⟨Naming.slot f.qualifier name, slot⟩ ∉ s.declarations.images) ∧
        (.shadowed .block name slot holder ∈ h.warnings →
          ⟨Naming.slot f.qualifier name, slot⟩ ∉ s.declarations.blocks) := by
  obtain ⟨es, hmade⟩ := exists_madeFrom hmake
  obtain ⟨first, -, hfirst, hopening, hwarnings⟩ := hmade.exists_ofEdition hs
  obtain ⟨hguide, hdeclarations, -⟩ := Opening.ofEdition?_eq_ok_iff.mp hopening
  obtain ⟨-, -, himages, -⟩ := Declarations.ofEdition?_eq_ok_iff.mp hdeclarations
  obtain ⟨d, -, hcheck⟩ := id hfirst
  obtain ⟨-, -, -, -, -, -, hbindings⟩ := Edition.check?_eq_ok_iff.mp hcheck
  refine ⟨Guide.filterMap_listed?_lines (hguide ▸ Guide.isReadable_ofEdition _ _),
    declarations_infix_lines hs, ⟨first, hfirst, hguide ▸ rfl, ?_⟩, ?_⟩
  · rw [hwarnings, hguide]
    simp only [Guide.entries, Guide.ofEdition, List.forall_mem_append, List.forall_mem_flatMap,
      List.forall_mem_map]
    constructor
    · intro p hp x hx
      exact (Edition.program_declaredOrLost hcheck hdeclarations hp x hx).imp_right
        fun hlocation => ⟨p, hp, hlocation⟩
    · intro k hk
      refine .inl (.inl (Declarations.declaredIn_of_mem ?_))
      rw [Declarations.constants, himages]
      exact List.mem_append_left _ (List.mem_append_right _ hk)
  · -- a resource is lost because another name holds its slot
    intro name slot holder
    rw [hwarnings, shadowed_mem_iff hbindings, shadowed_mem_iff hbindings, himages,
      Declarations.blocks_eq hdeclarations]
    exact ⟨(Bindings.merges_images hbindings).notMem_of_shadowed f.qualifier,
      (Bindings.merges_blocks hbindings).notMem_of_shadowed f.qualifier⟩

/-- The guide to two programs with images on one slot. The second image has lost the slot. -/
theorem Sample.guide_entries_declared_of_texturedPair :
    ∃ h s, Header.make? pairFile texturedPair pairOptions = .ok h ∧ s ∈ h.opening ∧
      s.guide.lines.filterMap listed? = [.constant ⟨"SLOT_tex_a", 0⟩, .constant ⟨"SLOT_tex_b", 0⟩,
        .constant ⟨"SLOT_tex_a", 0⟩] ∧
      ⟨"SLOT_tex_b", 0⟩ ∉ s.declarations.images := by
  obtain ⟨h, hmake, hheader⟩ : ∃ h, Header.make? pairFile texturedPair pairOptions = .ok h ∧
      (h.warnings, h.opening.map fun s => s.guide.entries) =
        ([.shadowed .image "tex_b" 0 "tex_a"], some [.constant ⟨"SLOT_tex_a", 0⟩,
          .constant ⟨"SLOT_tex_b", 0⟩, .constant ⟨"SLOT_tex_a", 0⟩]) :=
    exists_of_map_toOption (by decide +kernel)
  obtain ⟨hwarnings, hentries⟩ := Prod.mk.inj hheader
  obtain ⟨s, hs, hentries⟩ := Option.map_eq_some_iff.mp hentries
  obtain ⟨htext, -, -, hlost⟩ := Header.guide_entries_declared hmake hs
  refine ⟨h, s, hmake, hs, htext.trans hentries, (hlost "tex_b" 0 "tex_a").1 ?_⟩
  rw [hwarnings]
  exact List.mem_cons_self

/-! ### What is listed in vain -/

/-- Both programs have a block on the same slot, under different names. -/
def Sample.shadowedPair : Compilations :=
  .ofList [(.glsl330, blockPair ⟨"params_a", 0, 16, [⟨"tint", .float4, 0, 1⟩]⟩
    ⟨"params_b", 0, 16, [⟨"tint", .float4, 0, 1⟩]⟩)]

lemma Sample.exists_header_with_shadowedPair : ∃ h s,
    Header.make? pairFile shadowedPair (.ofCompilations shadowedPair "quad.h") = .ok h ∧
      s ∈ h.opening ∧
      .constant ⟨"SLOT_params_b", 0⟩ ∈ s.guide.lines.filterMap listed? ∧
      .struct "params_b_t" ∈ s.guide.lines.filterMap listed? ∧
      "#define SLOT_params_b (0)" ∉ s.declarations.lines ∧
      s.declarations.identifiers = ["params_a_t"] := by
  obtain ⟨h, hmake, hheader⟩ : ∃ h,
      Header.make? pairFile shadowedPair (.ofCompilations shadowedPair "quad.h") = .ok h ∧
        h.opening.map (fun s =>
          (decide ("                    Bind slot: SLOT_params_b = 0" ∈ s.guide.lines ∧
            "                    C struct: params_b_t" ∈ s.guide.lines ∧
            "#define SLOT_params_b (0)" ∉ s.declarations.lines), s.declarations.identifiers)) =
          some (true, ["params_a_t"]) := exists_of_map_toOption (by decide +kernel)
  obtain ⟨s, hs, hopening⟩ := Option.map_eq_some_iff.mp hheader
  obtain ⟨hlines, hidentifiers⟩ := Prod.mk.inj hopening
  obtain ⟨hslot, hstruct, hconstant⟩ := of_decide_eq_true hlines
  refine ⟨h, s, hmake, hs, ?_, ?_, hconstant, hidentifiers⟩
  · refine List.mem_filterMap.mpr ⟨_, hslot, ?_⟩
    exact listed?_slot (k := ⟨"SLOT_params_b", 0⟩) (by decide)
  · exact List.mem_filterMap.mpr ⟨_, hstruct, listed?_struct "params_b"⟩

/-- For a program whose block has lost its slot, the guide lists a constant and a struct that are
not declared. -/
theorem Header.exists_entry_without_declaration :
    (¬ ∀ (f : ShaderFile) (cs : Compilations) (o : Options) (h : Header),
      make? f cs o = .ok h → ∀ s ∈ h.opening, ∀ k,
        .constant k ∈ s.guide.lines.filterMap listed? →
          GuideEntry.DeclaredIn s.declarations.lines (.constant k)) ∧
    ¬ ∀ (f : ShaderFile) (cs : Compilations) (o : Options) (h : Header),
      make? f cs o = .ok h → ∀ s ∈ h.opening, ∀ name,
        .struct name ∈ s.guide.lines.filterMap listed? →
          GuideEntry.DeclaredIn s.declarations.lines (.struct name) := by
  obtain ⟨h, s, hmake, hs, hslot, hstruct, hconstant, hidentifiers⟩ :=
    Sample.exists_header_with_shadowedPair
  constructor
  · intro hall
    exact hconstant (hall _ _ _ h hmake s hs _ hslot)
  · intro hall
    have hdeclared := hall _ _ _ h hmake s hs _ hstruct
    rw [GuideEntry.DeclaredIn, Declarations.filterMap_identifier?_lines, hidentifiers] at hdeclared
    exact absurd hdeclared (by decide)

end ShaderHeader
