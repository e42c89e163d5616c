import ShaderHeader.Proofs.SharedSlots

/-!
# Locations

The constants for locations are those of the vertex stages of the first edition, by slot, while a
descriptor lists the attributes of its own edition by position. Editions agree on slots only. So a
location that a descriptor uses has a constant if the first edition takes the stage for a vertex
stage and if the attributes that are listed stand at their slots, and then the constant has the name
that the first edition knows.
-/

namespace ShaderHeader

open Check

/-! ### Constants of a stage -/

/-- Every input with a slot has a constant in a program whose stage is taken for a vertex
stage. -/
lemma Edition.mem_locationConstants {f : ShaderFile} {cs : Compilations} {d : Dialect} {e : Edition}
    (h : Edition.check? f d cs = .ok e) {p : LinkedProgram} (hp : p ∈ e.programs)
    (hstage : p.vertex.source.interface.stage = .vertex) {a : Attribute} {slot : Nat}
    (ha : a ∈ p.vertex.source.interface.inputs.toList) (hslot : a.slot = some slot) :
    ⟨Naming.location f.qualifier p.vertex.snippet.name a.name, slot⟩ ∈
      locationConstants f e.compilation :=
  ShaderHeader.mem_locationConstants (source_mem_of_mem_programs h hp .vertex) hstage
    (snippet_of_mem_programs h hp .vertex) (Interface.mem_locations ha hslot _ _)

/-! ### Attributes of a program -/

/-- The slots of attributes are what a profile has of them. -/
lemma LinkedProgram.exists_attribute_of_profile_eq {p q : LinkedProgram}
    (h : p.profile = q.profile) {a : Attribute} {slot : Nat}
    (ha : a ∈ p.vertex.source.interface.inputs.toList) (hslot : a.slot = some slot) :
    ∃ a' ∈ q.vertex.source.interface.inputs.toList, a'.slot = some slot := by
  have hslots : p.vertex.source.interface.inputs.toList.filterMap Attribute.slot =
      q.vertex.source.interface.inputs.toList.filterMap Attribute.slot :=
    congrArg InterfaceProfile.locations (Prod.mk.inj h).1
  have hcommon := List.mem_filterMap.mpr ⟨a, ha, hslot⟩
  rw [hslots] at hcommon
  exact List.mem_filterMap.mp hcommon

namespace Descriptor

variable {qualifier : String} {d : Dialect} {p : LinkedProgram} {i : Nat}

lemma attributes_ofLinked (hi : i < attributeCapacity) :
    (ofLinked qualifier d p).attributes[i] =
      Attribute.entry? p.vertex.source.interface.inputs[i] := by
  simp [ofLinked]

/-- What a descriptor lists at a position has the name of the attribute there. -/
lemma name_of_mem_attributes {a : AttributeEntry} (hi : i < attributeCapacity)
    (h : a ∈ (ofLinked qualifier d p).attributes[i]) :
    a.name = p.vertex.source.interface.inputs[i].name := by
  rw [attributes_ofLinked, Option.mem_def, Attribute.entry?] at h
  split at h
  · exact Option.some.inj h ▸ rfl
  · cases h

end Descriptor

/-! ### Locations of all dialects -/

/-- Whatever position the descriptor of a program uses, for any dialect, if the attribute there has
this position for its slot, then the first edition has an attribute on the slot in the same program,
and the header has a constant for its name. For the first dialect this is the attribute itself. -/
theorem Header.locations_defined {f : ShaderFile} {cs : Compilations} {o : Options} {h : Header}
    (hmake : make? f cs o = .ok h) {d : Dialect} (hd : d ∈ o.dialects.toList) :
    ∃ e first, Edition.check? f d cs = .ok e ∧ IsFirstEdition f cs o first ∧
      Section.ofEdition f e o.guarded ∈ h.sections ∧
      e.programs.map LinkedProgram.program = f.programs.values ∧
      ∃ s ∈ h.opening, (∀ k ∈ s.declarations.constants, k.line ∈ h.lines) ∧
        ∀ p ∈ e.programs, ∃ q ∈ first.programs, q.program = p.program ∧
          (q.vertex.source.interface.stage = .vertex →
            ∀ (i : Nat) (hi : i < attributeCapacity),
              ∀ a ∈ (Descriptor.ofLinked f.qualifier e.dialect p).attributes[i],
                p.vertex.source.interface.inputs[i].slot = some i →
                  ∃ a' ∈ q.vertex.source.interface.inputs.toList, a'.slot = some i ∧
                    (d ∈ o.dialects.toList.head? → a'.name = a.name) ∧
                    ⟨Naming.location f.qualifier p.vertex.snippet.name a'.name, i⟩ ∈
                      s.declarations.locations) := by
  obtain ⟨es, hmade⟩ := exists_madeFrom hmake
  obtain ⟨e, he, hcheck⟩ := hmade.exists_edition hd
  obtain ⟨first, hfirst, ⟨d', hhead, hcheck'⟩, s, hs, hdeclarations, -⟩ :=
    hmade.exists_first (List.ne_nil_of_mem he)
  obtain ⟨-, hlocations, -, -⟩ := Declarations.ofEdition?_eq_ok_iff.mp hdeclarations
  refine ⟨e, first, hcheck, ⟨d', hhead, hcheck'⟩, hmade.sections ▸ List.mem_map_of_mem he,
    Edition.map_program_of_check? hcheck, s, hs, fun k hk => line_mem_lines hs hk, ?_⟩
  intro p hp
  -- the same program, as the first edition has it
  obtain ⟨q, hq, hprogram, hprofile⟩ := hmade.exists_counterpart he hfirst hp
  refine ⟨q, hq, hprogram, ?_⟩
  intro hstage i hi a ha hslot
  have hname := Descriptor.name_of_mem_attributes hi ha
  have hmem : p.vertex.source.interface.inputs[i] ∈ p.vertex.source.interface.inputs.toList := by
    simp
  -- its attribute on the same slot: the profile has the slot, and not the name
  have hattribute : ∃ a' ∈ q.vertex.source.interface.inputs.toList, a'.slot = some i ∧
      (d ∈ o.dialects.toList.head? → a'.name = a.name) := by
    by_cases hfirstDialect : d ∈ o.dialects.toList.head?
    · -- in the first dialect the attribute is the same one
      obtain rfl : d = d' := Option.some.inj (hfirstDialect.symm.trans hhead)
      obtain rfl : e = first := Except.ok.inj (hcheck.symm.trans hcheck')
      obtain rfl := Edition.eq_of_program_eq hcheck hq hp hprogram
      exact ⟨_, hmem, hslot, fun _ => hname.symm⟩
    · -- nothing but the slot is known of the attribute in the first edition
      obtain ⟨a', ha', hslot'⟩ :=
        LinkedProgram.exists_attribute_of_profile_eq hprofile.symm hmem hslot
      exact ⟨a', ha', hslot', fun hhead => absurd hhead hfirstDialect⟩
  obtain ⟨a', ha', hslot', hname'⟩ := hattribute
  refine ⟨a', ha', hslot', hname', ?_⟩
  -- the snippet does not depend on the edition, so neither does this part of the name
  have hsnippet : q.vertex.snippet = p.vertex.snippet :=
    snippet_eq_of_linkStage?
      (hprogram ▸ Edition.linkStage?_of_mem_programs hcheck' hq .vertex)
      (Edition.linkStage?_of_mem_programs hcheck hp .vertex)
  rw [hlocations, ← hsnippet]
  exact Edition.mem_locationConstants hcheck' hq hstage ha' hslot'

/-- The inputs of a small header have their constants for the second dialect. -/
theorem Sample.locations_defined_of_small_header :
    ∃ h, Header.make? file compilations options = .ok h ∧
      ∃ s ∈ h.opening, ⟨"ATTR_vs_uv", 2⟩ ∈ s.declarations.locations ∧
        "#define ATTR_vs_uv (2)" ∈ h.lines := by
  obtain ⟨h, hmake⟩ := exists_header
  obtain ⟨e, first, hcheck, ⟨d, hd, hcheck'⟩, -, -, s, hs, hlines, hlocations⟩ :=
    Header.locations_defined hmake (d := .hlsl5) (by decide)
  obtain ⟨e', he', hprograms⟩ : ∃ e, Edition.check? file .hlsl5 compilations = .ok e ∧
      e.programs.map (fun p => (p.vertex.snippet.name, p.vertex.source.interface)) =
        [("vs", vertex)] := exists_of_map_toOption (by decide +kernel)
  obtain rfl : e = e' := Except.ok.inj (hcheck.symm.trans he')
  obtain rfl : Dialect.glsl330 = d := Option.some.inj hd
  obtain ⟨first', hfirst', hprograms'⟩ : ∃ e, Edition.check? file .glsl330 compilations = .ok e ∧
      e.programs.map (fun p => p.vertex.source.interface) = [vertex] :=
    exists_of_map_toOption (by decide +kernel)
  obtain rfl : first = first' := Except.ok.inj (hcheck'.symm.trans hfirst')
  obtain ⟨p, hp, hvertex⟩ := exists_mem_of_map_eq hprograms List.mem_cons_self
  obtain ⟨hsnippet, hvertex⟩ := Prod.mk.inj hvertex
  obtain ⟨q, hq, -, hdefined⟩ := hlocations p hp
  have hvertex' : q.vertex.source.interface = vertex :=
    List.mem_singleton.mp
      (hprograms' ▸ List.mem_map_of_mem (f := fun p => p.vertex.source.interface) hq)
  obtain ⟨a', ha', hslot, -, hk⟩ := hdefined (hvertex' ▸ rfl) 2 (by decide)
    ⟨"uv", "TEXCOORD", 1⟩ (by rw [Descriptor.attributes_ofLinked, hvertex, Option.mem_def]; rfl)
    (by rw [hvertex]; rfl)
  have hname : ∀ a' ∈ vertex.inputs.toList, a'.slot = some 2 → a'.name = "uv" := by decide
  rw [hsnippet, hname a' (hvertex' ▸ ha') hslot] at hk
  exact ⟨h, hmake, s, hs, hk, hlines _ (List.mem_append_left _ (List.mem_append_left _ hk))⟩

/-! ### Locations without a constant -/

/-- Whatever attribute a descriptor lists has a constant of its name with its position. -/
def Header.DefinesLocations (f : ShaderFile) (cs : Compilations) (o : Options) (h : Header) :
    Prop :=
  ∀ d ∈ o.dialects.toList, ∀ e, Edition.check? f d cs = .ok e → ∀ s ∈ h.opening,
    ∀ p ∈ e.programs, ∀ (i : Nat) (hi : i < attributeCapacity),
      ∀ a ∈ (Descriptor.ofLinked f.qualifier e.dialect p).attributes[i],
        ⟨Naming.location f.qualifier p.vertex.snippet.name a.name, i⟩ ∈ s.declarations.locations

namespace Sample

/-- A compilation of the small file without any resources. -/
def bare (vertex : Interface) : Compilation :=
  ⟨[⟨0, "", vertex⟩, ⟨1, "", { stage := .fragment, entry := "main" }⟩], []⟩

/-- A stage with one input, on the first slot. -/
def withInput (stage : Stage) (name : String) (position : Nat) : Interface :=
  { stage, entry := "main"
    inputs := AttributeTable.empty.setIfInBounds position ⟨some 0, name, "TEXCOORD", 0⟩ }

/-- The input has another name for the second dialect. -/
def renamed : Compilations :=
  .ofList [(.glsl330, bare (withInput .vertex "position" 0)),
    (.hlsl5, bare (withInput .vertex "pos" 0))]

/-- The vertex stage is taken for a fragment stage. -/
def mistaken : Compilations :=
  .ofList [(.glsl330, bare (withInput .fragment "position" 0))]

/-- The input does not stand at its slot. -/
def misplaced : Compilations :=
  .ofList [(.glsl330, bare (withInput .vertex "position" 1))]

/-- Such a case is computed. -/
lemma exists_header_without_location {cs : Compilations} (ks : List Constant) (d : Dialect)
    (i : Nat) (hi : i < attributeCapacity) (a : AttributeEntry)
    (hheader : (Header.make? file cs (.ofCompilations cs "quad.h")).toOption.map
      (fun h => h.opening.map fun s => s.declarations.locations) = some (some ks))
    (hd : d ∈ (Options.ofCompilations cs "quad.h").dialects.toList)
    (hedition : (Edition.check? file d cs).toOption.map (fun e => e.programs.map fun p =>
      (p.vertex.snippet.name, (Descriptor.ofLinked file.qualifier e.dialect p).attributes[i])) =
        some [("vs", some a)])
    (hk : ⟨Naming.location file.qualifier "vs" a.name, i⟩ ∉ ks) :
    ∃ h, Header.make? file cs (.ofCompilations cs "quad.h") = .ok h ∧
      ¬ h.DefinesLocations file cs (.ofCompilations cs "quad.h") := by
  obtain ⟨h, hmake, hopening⟩ := exists_of_map_toOption hheader
  obtain ⟨s, hs, rfl⟩ := Option.map_eq_some_iff.mp hopening
  obtain ⟨e, hcheck, hprograms⟩ := exists_of_map_toOption hedition
  refine ⟨h, hmake, fun hdefined => hk ?_⟩
  obtain ⟨p, hp, heq⟩ := exists_mem_of_map_eq hprograms List.mem_cons_self
  obtain ⟨hsnippet, ha⟩ := Prod.mk.inj heq
  have hmem := hdefined d hd e hcheck s hs p hp i hi a ha
  rwa [hsnippet] at hmem

end Sample

/-- A descriptor can list an attribute for which no constant is defined: if its name is not that of
the first dialect, if the stage is not taken for a vertex stage, or if it does not stand at its
slot. -/
theorem Header.exists_location_without_constant :
    (¬ ∀ (f : ShaderFile) (cs : Compilations) (o : Options) (h : Header),
      make? f cs o = .ok h → h.DefinesLocations f cs o) ∧
    ∀ cs ∈ [Sample.renamed, Sample.mistaken, Sample.misplaced],
      ∃ h, make? Sample.file cs (.ofCompilations cs "quad.h") = .ok h ∧
        ¬ h.DefinesLocations Sample.file cs (.ofCompilations cs "quad.h") := by
  have hsamples : ∀ cs ∈ [Sample.renamed, Sample.mistaken, Sample.misplaced],
      ∃ h, make? Sample.file cs (.ofCompilations cs "quad.h") = .ok h ∧
        ¬ h.DefinesLocations Sample.file cs (.ofCompilations cs "quad.h") := by
    simp only [List.forall_mem_cons, List.not_mem_nil, false_implies, implies_true, and_true]
    refine ⟨?_, ?_, ?_⟩
    · -- another name in the second dialect
      exact Sample.exists_header_without_location [⟨"ATTR_vs_position", 0⟩] .hlsl5 0 (by decide)
        ⟨"pos", "TEXCOORD", 0⟩ (by decide +kernel) (by decide) (by decide +kernel) (by decide)
    · -- a vertex stage that takes itself for another one
      exact Sample.exists_header_without_location [] .glsl330 0 (by decide)
        ⟨"position", "TEXCOORD", 0⟩ (by decide +kernel) (by decide) (by decide +kernel) (by decide)
    · -- an attribute at a location that is not its slot
      exact Sample.exists_header_without_location [⟨"ATTR_vs_position", 0⟩] .glsl330
        1 (by decide) ⟨"position", "TEXCOORD", 0⟩ (by decide +kernel) (by decide)
        (by decide +kernel) (by decide)
  refine ⟨fun hall => ?_, hsamples⟩
  obtain ⟨h, hmake, hundefined⟩ := hsamples _ List.mem_cons_self
  exact hundefined (hall _ _ _ _ hmake)

end ShaderHeader
