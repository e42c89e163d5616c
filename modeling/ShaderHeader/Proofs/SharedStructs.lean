import ShaderHeader.Proofs.SharedSlots

/-!
# Shared structs

A slot has one struct, which is that of the first block on it in the first edition. Slots are given
out by names alone. So the struct fits the blocks of its name in all stages and for all dialects if
such blocks are the same in the first edition, and nothing sees to it that they are.
-/

namespace ShaderHeader

open Check

/-! ### Structs of slots -/

/-- The struct of a block depends on the block's profile only. -/
lemma HostStruct.ofBlock?_of_profile_eq {types : NameTable String} {b b' : Block} {s : HostStruct}
    (h : b.profile = b'.profile) (hs : ofBlock? types b = .ok s) : ofBlock? types b' = .ok s := by
  obtain ⟨hslot, hname, hsize, huniforms⟩ := BlockProfile.mk.inj h
  obtain ⟨hword, hfollow, hle, rfl⟩ := ofBlock?_eq_ok_iff.mp hs
  rw [Block.roundedSize?_eq_some_iff.mpr ⟨hword, rfl⟩] at hsize
  obtain ⟨hword', hrounded⟩ := Block.roundedSize?_eq_some_iff.mp hsize.symm
  have hstop : b.stop = b'.stop := congrArg (stopFrom 0) huniforms
  rw [huniforms] at hfollow ⊢
  rw [hstop, ← hrounded] at hle
  rw [hstop, hslot, hname]
  exact ofBlock?_eq_ok_iff.mpr ⟨hword', hfollow, hle, rfl⟩

/-- A slot has the struct of the block that holds it. -/
lemma Declarations.exists_struct {f : ShaderFile} {e : Edition} {ds : Declarations}
    (h : ofEdition? f e = .ok ds) (hnodup : (e.bindings.blocks.holders.map Resource.slot).Nodup)
    {b : Block} (hb : b ∈ e.bindings.blocks.holders) :
    ∃ s, HostStruct.ofBlock? f.types b = .ok s ∧
      ds.structs.filter (fun s => s.slot = b.slot) = [s] := by
  obtain ⟨-, -, -, hstructs⟩ := ofEdition?_eq_ok_iff.mp h
  obtain ⟨s, hs, hlayout⟩ := exists_mem_of_forall₂ hstructs.flip hb
  obtain ⟨-, hslot⟩ := HostStruct.block_slot_of_ofBlock? hlayout
  have hslots : ds.structs.map HostStruct.slot = e.bindings.blocks.holders.map Resource.slot := by
    have hvalues := congrArg (List.map Constant.value) (blocks_eq h)
    rwa [blocks, List.map_map, List.map_map] at hvalues
  refine ⟨s, hlayout, ?_⟩
  rw [← hslot]
  exact Keys.filter_eq_singleton (hslots ▸ hnodup) hs

/-! ### Blocks that agree -/

/-- Blocks of one name on one slot show the same. -/
def Compilation.BlocksAgree (c : Compilation) : Prop :=
  ∀ b ∈ c.blocks, ∀ b' ∈ c.blocks, b.slot = b'.slot → b.name = b'.name → b.profile = b'.profile

/-- Whatever block a stage of a program has on a slot, for any dialect, the header has one struct
for the slot, made from the first block on it in the first edition. If blocks of one name agree in
the first edition, then a struct that has the name of the stage's block has its uniforms and its
size, and is the struct that the block itself would be given. -/
theorem Header.structs_fit_blocks {f : ShaderFile} {cs : Compilations} {o : Options} {h : Header}
    (hmake : make? f cs o = .ok h) {d : Dialect} (hd : d ∈ o.dialects.toList) :
    ∃ e first, Edition.check? f d cs = .ok e ∧ IsFirstEdition f cs o first ∧
      e.programs.map LinkedProgram.program = f.programs.values ∧
      ∃ s ∈ h.opening, ∀ p ∈ e.programs, ∀ stage,
        ∀ b ∈ (p.stage stage).source.interface.blocks, ∃ b₀ struct,
          firstOn? first.compilation.blocks b.slot = some b₀ ∧
          HostStruct.ofBlock? f.types b₀ = .ok struct ∧
          s.declarations.structs.filter (fun s => s.slot = b.slot) = [struct] ∧
          (first.compilation.BlocksAgree → struct.block = b.name →
            b₀.uniforms = b.uniforms ∧ b₀.roundedSize? = b.roundedSize? ∧
              HostStruct.ofBlock? f.types b = .ok struct) := by
  obtain ⟨es, hmade⟩ := exists_madeFrom hmake
  obtain ⟨e, he, hcheck⟩ := hmade.exists_edition hd
  obtain ⟨first, hfirst, hisFirst, s, hs, hdeclarations, -⟩ :=
    hmade.exists_first (List.ne_nil_of_mem he)
  obtain ⟨d', -, hcheck'⟩ := hmade.exists_check? hfirst
  obtain ⟨-, -, -, -, -, -, hbindings⟩ := Edition.check?_eq_ok_iff.mp hcheck'
  have hmerges := Bindings.merges_blocks hbindings
  refine ⟨e, first, hcheck, hisFirst, Edition.map_program_of_check? hcheck, s, hs, ?_⟩
  intro p hp stage b hb
  obtain ⟨b', hb', hprofile⟩ := hmade.exists_block_profile_eq he hfirst hp hb
  obtain ⟨hslot', hname', -, -⟩ := BlockProfile.mk.inj hprofile
  obtain ⟨b₀, hb₀, hholder, -⟩ := hmerges.exists_holder hb'
  have hslot : b₀.slot = b'.slot := slot_of_firstOn? hholder
  obtain ⟨struct, hlayout, hstruct⟩ :=
    Declarations.exists_struct hdeclarations hmerges.nodup_slots hb₀
  refine ⟨b₀, struct, hslot' ▸ hholder, hlayout, (hslot.trans hslot') ▸ hstruct, ?_⟩
  -- if blocks of one name agree then both have one profile
  intro hagree hname
  obtain ⟨hblock, -⟩ := HostStruct.block_slot_of_ofBlock? hlayout
  have heq : b₀.profile = b.profile :=
    (hagree b₀ (mem_of_firstOn? hholder) b' hb' hslot
      (hblock.symm.trans (hname.trans hname'.symm))).trans hprofile
  obtain ⟨-, -, hsize, huniforms⟩ := BlockProfile.mk.inj heq
  exact ⟨huniforms, hsize, HostStruct.ofBlock?_of_profile_eq heq hlayout⟩

namespace Sample

/-- A block with two uniforms. -/
def scaled : Block :=
  ⟨"params", 0, 32, [⟨"scale", .float, 0, 1⟩, ⟨"tint", .float4, 16, 1⟩]⟩

/-- Fragment stages with one block each. -/
def blockPair (a b : Block) : Compilation :=
  pair { stage := .fragment, entry := "main", blocks := [a] }
    { stage := .fragment, entry := "main", blocks := [b] }

/-- Both programs have the same block. -/
def agreeingPair : Compilations :=
  .ofList [(.glsl330, blockPair scaled scaled), (.metalMacos, blockPair scaled scaled)]

/-- So the struct fits the second program for the second dialect as well. -/
theorem structs_fit_blocks_of_agreeingPair :
    ∃ h struct, Header.make? pairFile agreeingPair (.ofCompilations agreeingPair "quad.h") = .ok h ∧
      HostStruct.ofBlock? pairFile.types scaled = .ok struct ∧
      ∃ s ∈ h.opening, s.declarations.structs.filter (fun s => s.slot = 0) = [struct] := by
  obtain ⟨h, hmake, -⟩ : ∃ h,
      Header.make? pairFile agreeingPair (.ofCompilations agreeingPair "quad.h") = .ok h ∧
        h.opening.isSome = true := exists_of_map_toOption (by decide +kernel)
  obtain ⟨e, first, hcheck, ⟨d, hd, hcheck'⟩, -, s, hs, hfit⟩ :=
    Header.structs_fit_blocks hmake (d := .metalMacos) (by decide)
  obtain ⟨e', he', hprograms⟩ : ∃ e, Edition.check? pairFile .metalMacos agreeingPair = .ok e ∧
      e.programs.map (fun p => p.fragment.source.interface.blocks) = [[scaled], [scaled]] :=
    exists_of_map_toOption (by decide +kernel)
  obtain rfl : e = e' := Except.ok.inj (hcheck.symm.trans he')
  obtain ⟨p, hp, hb⟩ := exists_mem_of_map_eq hprograms List.mem_cons_self
  obtain rfl : Dialect.glsl330 = d := Option.some.inj hd
  obtain ⟨first', hfirst', hblocks⟩ : ∃ e, Edition.check? pairFile .glsl330 agreeingPair = .ok e ∧
      e.compilation.blocks = [scaled, scaled] := exists_of_map_toOption (by decide +kernel)
  obtain rfl : first = first' := Except.ok.inj (hcheck'.symm.trans hfirst')
  have hagree : first.compilation.BlocksAgree := by
    simp [Compilation.BlocksAgree, hblocks]
  obtain ⟨b₀, struct, hb₀, hlayout, hstruct, hown⟩ :=
    hfit p hp .fragment scaled (hb ▸ List.mem_cons_self)
  rw [hblocks] at hb₀
  obtain rfl : scaled = b₀ := Option.some.inj hb₀
  obtain ⟨hblock, -⟩ := HostStruct.block_slot_of_ofBlock? hlayout
  exact ⟨h, struct, hmake, (hown hagree hblock).2.2, s, hs, hstruct⟩

end Sample

/-! ### Blocks that do not agree -/

/-- A block with the same name and slot, but with one uniform only. -/
def Sample.tinted : Block :=
  ⟨"params", 0, 16, [⟨"tint", .float4, 0, 1⟩]⟩

/-- Without a word about it, a program can be given the struct of another program's block, whose
uniforms are not those of its own block of this name. -/
theorem Header.exists_struct_of_other_block :
    ¬ ∀ (f : ShaderFile) (cs : Compilations) (o : Options) (h : Header),
      make? f cs o = .ok h → h.warnings = [] →
        ∀ d ∈ o.dialects.toList, ∀ e first, Edition.check? f d cs = .ok e →
          IsFirstEdition f cs o first → ∀ s ∈ h.opening, ∀ p ∈ e.programs, ∀ stage,
            ∀ b ∈ (p.stage stage).source.interface.blocks, ∀ struct ∈ s.declarations.structs,
              struct.slot = b.slot → struct.block = b.name →
                ∃ b₀ ∈ first.compilation.blocks, HostStruct.ofBlock? f.types b₀ = .ok struct ∧
                  b₀.uniforms = b.uniforms ∧ b₀.roundedSize? = b.roundedSize? := by
  intro hall
  let cs : Compilations := .ofList [(.glsl330, Sample.blockPair Sample.tinted Sample.scaled)]
  let o : Options := .ofCompilations cs "quad.h"
  -- the header has one struct, that of the first block
  let struct : HostStruct := ⟨"params", 0, [.field "tint" 0 (.floats 4) 1], 16⟩
  obtain ⟨h, hmake, hheader⟩ : ∃ h, make? Sample.pairFile cs o = .ok h ∧
      (h.warnings, h.opening.map fun s => s.declarations.structs) = ([], some [struct]) :=
    exists_of_map_toOption (by decide +kernel)
  obtain ⟨hwarnings, hopening⟩ := Prod.mk.inj hheader
  obtain ⟨s, hs, hstructs⟩ := Option.map_eq_some_iff.mp hopening
  obtain ⟨e, hcheck, hedition⟩ : ∃ e, Edition.check? Sample.pairFile .glsl330 cs = .ok e ∧
      (e.compilation.blocks, e.programs.map fun p => p.fragment.source.interface.blocks) =
        ([Sample.tinted, Sample.scaled], [[Sample.tinted], [Sample.scaled]]) :=
    exists_of_map_toOption (by decide +kernel)
  obtain ⟨hblocks, hprograms⟩ := Prod.mk.inj hedition
  obtain ⟨p, hp, hb⟩ := exists_mem_of_map_eq hprograms
    (List.mem_cons_of_mem _ List.mem_cons_self)
  have hmem : Sample.scaled ∈ p.fragment.source.interface.blocks := hb ▸ List.mem_cons_self
  obtain ⟨b₀, hb₀, hlayout, huniforms, -⟩ :=
    hall _ cs o h hmake hwarnings .glsl330 (by decide) e e hcheck ⟨.glsl330, by decide, hcheck⟩
      s hs p hp .fragment Sample.scaled hmem struct (hstructs ▸ List.mem_cons_self) rfl rfl
  rw [hblocks] at hb₀
  rcases List.mem_cons.mp hb₀ with rfl | hb₀
  · exact absurd huniforms (by decide)
  · obtain rfl := List.mem_singleton.mp hb₀
    exact absurd hlayout (by decide)

end ShaderHeader
