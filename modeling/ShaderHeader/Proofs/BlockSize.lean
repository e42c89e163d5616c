import ShaderHeader.Proofs.DescriptorTables

/-!
# Sizes of blocks

A block has two sizes in a header: that of its host struct, which ends with the stride of the last
uniform, and the declared one in the descriptors, rounded to the stride. The struct is never the
larger one, and it is smaller if whole strides at the end of the block hold no uniform.
-/

namespace ShaderHeader

open Check

/-- A block of a stage has a host struct, and its entry in the descriptor carries the rounded
size. -/
lemma Edition.exists_struct_entry {f : ShaderFile} {cs : Compilations} {d : Dialect} {e : Edition}
    (h : Edition.check? f d cs = .ok e) {p : LinkedProgram} (hp : p ∈ e.programs) (stage : Stage)
    {b : Block} (hb : b ∈ (p.stage stage).source.interface.blocks) :
    ∃ s, HostStruct.ofBlock? f.types b = .ok s ∧
      ((Descriptor.ofLinked f.qualifier e.dialect p).stage stage).blocks[b.slot]? =
        some (some ⟨b.name, strideAbove b.size⟩) := by
  obtain ⟨-, -, hlayout⟩ :=
    checkInterface_eq_ok_iff.mp (Edition.checkInterface_of_mem_programs h hp stage)
  obtain ⟨s, hs⟩ := hlayout b hb
  have hshows := Edition.shows_ofLinked h hp f.qualifier e.dialect
  exact ⟨s, hs, ((hshows.stages stage).block_iff _ _).mpr ⟨b, hb, rfl, rfl⟩⟩

/-- A struct in a header belongs to a block of the first edition. -/
lemma Header.MadeFrom.exists_block {f : ShaderFile} {cs : Compilations} {o : Options} {h : Header}
    {es : List Edition} (hmade : MadeFrom f cs o h es) {opening : Opening}
    (hopening : opening ∈ h.opening) {s : HostStruct} (hs : s ∈ opening.declarations.structs) :
    ∃ e ∈ es.head?, ∃ source ∈ e.compilation.sources, ∃ b ∈ source.interface.blocks,
      HostStruct.ofBlock? f.types b = .ok s := by
  obtain ⟨first, hfirst, ⟨d, -, hd⟩, hedition, -⟩ := hmade.exists_ofEdition hopening
  obtain ⟨-, hdeclarations, -⟩ := Opening.ofEdition?_eq_ok_iff.mp hedition
  obtain ⟨-, -, -, hstructs⟩ := Declarations.ofEdition?_eq_ok_iff.mp hdeclarations
  obtain ⟨b, hb, hlayout⟩ := exists_mem_of_forall₂ hstructs hs
  obtain ⟨-, -, -, -, -, -, hbindings⟩ := Edition.check?_eq_ok_iff.mp hd
  obtain ⟨source, hsource, hb⟩ := Bindings.exists_source_of_mem_blocks hbindings hb
  exact ⟨first, hfirst, source, hsource, b, hb, hlayout⟩

/-- A block whose last three strides hold no uniform. -/
def Sample.sparse : Block :=
  ⟨"params", 0, 64, [⟨"scale", .float, 0, 1⟩]⟩

/-- The struct of such a block has one stride, and the block has four. -/
theorem Header.exists_struct_below_roundedSize :
    ¬ ∀ (types : NameTable String) (b : Block) (s : HostStruct),
      HostStruct.ofBlock? types b = .ok s → b.roundedSize? = some s.size := by
  intro h
  have hsize := h .empty Sample.sparse _ rfl
  revert hsize
  decide

/-- A host struct ends with the stride of the last uniform and so is never larger than the rounded
size of its block. Both are equal exactly if the rounded size ends with this stride as well. In a
header every struct belongs to a block, and for every block of every stage the descriptor has the
rounded size that this compares. -/
theorem Header.struct_size_le_roundedSize :
    (∀ (types : NameTable String) (b : Block) (s : HostStruct),
      HostStruct.ofBlock? types b = .ok s →
        s.size = strideAbove b.stop ∧ ∃ size, b.roundedSize? = some size ∧ s.size ≤ size ∧
          (s.size = size ↔ size < b.stop + blockStride)) ∧
    ∀ (f : ShaderFile) (cs : Compilations) (o : Options) (h : Header),
      Header.make? f cs o = .ok h →
        ∃ es, List.Forall₂ (fun d e => Edition.check? f d cs = .ok e) o.dialects.toList es ∧
          h.sections = es.map (Section.ofEdition f · o.guarded) ∧
          (∀ opening ∈ h.opening, ∀ s ∈ opening.declarations.structs,
            ∃ e ∈ es.head?, ∃ source ∈ e.compilation.sources, ∃ b ∈ source.interface.blocks,
              HostStruct.ofBlock? f.types b = .ok s) ∧
          ∀ e ∈ es, ∀ p ∈ e.programs, ∀ stage, ∀ b ∈ (p.stage stage).source.interface.blocks,
            ∃ s size, HostStruct.ofBlock? f.types b = .ok s ∧ b.roundedSize? = some size ∧
              ((Descriptor.ofLinked f.qualifier e.dialect p).stage stage).blocks[b.slot]? =
                some (some ⟨b.name, size⟩) ∧
              s.size ≤ size ∧ (s.size = size ↔ size < b.stop + blockStride) := by
  constructor
  · intro types b s hs
    obtain ⟨hrounded, hsize, hle, hiff⟩ := HostStruct.size_of_ofBlock? hs
    exact ⟨hsize, strideAbove b.size, hrounded, hle, hiff⟩
  · intro f cs o h hmake
    obtain ⟨es, hmade⟩ := Header.exists_madeFrom hmake
    refine ⟨es, hmade.checked, hmade.sections, fun _ hopening _ => hmade.exists_block hopening, ?_⟩
    intro e he p hp stage b hb
    obtain ⟨d, -, hd⟩ := hmade.exists_check? he
    obtain ⟨s, hs, hentry⟩ := Edition.exists_struct_entry hd hp stage hb
    obtain ⟨hrounded, -, hle, hiff⟩ := HostStruct.size_of_ofBlock? hs
    exact ⟨s, strideAbove b.size, hs, hrounded, hentry, hle, hiff⟩

/-- Neither a sparse block nor a block of a small header has a struct that is larger. -/
theorem Sample.struct_size_le_roundedSize_of_sparse :
    (∃ s size, HostStruct.ofBlock? .empty sparse = .ok s ∧ s.size = strideAbove sparse.stop ∧
      sparse.roundedSize? = some size ∧ s.size ≤ size ∧
      (s.size = size ↔ size < sparse.stop + blockStride)) ∧
    ∃ h, ∃ es : List Edition, Header.make? file compilations options = .ok h ∧
      h.sections = es.map (Section.ofEdition file · true) ∧
      ∀ e ∈ es, ∀ p ∈ e.programs, ∀ stage, ∀ b ∈ (p.stage stage).source.interface.blocks,
        ∃ s size, HostStruct.ofBlock? file.types b = .ok s ∧
          ((Descriptor.ofLinked file.qualifier e.dialect p).stage stage).blocks[b.slot]? =
            some (some ⟨b.name, size⟩) ∧ s.size ≤ size := by
  constructor
  · obtain ⟨hstop, size, hsize⟩ := Header.struct_size_le_roundedSize.1 .empty sparse _ rfl
    exact ⟨_, size, rfl, hstop, hsize⟩
  · obtain ⟨h, hmake⟩ := exists_header
    obtain ⟨es, -, hsections, -, htables⟩ :=
      Header.struct_size_le_roundedSize.2 file compilations options h hmake
    refine ⟨h, es, hmake, hsections, ?_⟩
    intro e he p hp stage b hb
    obtain ⟨s, size, hs, -, hentry, hle, -⟩ := htables e he p hp stage b hb
    exact ⟨s, size, hs, hentry, hle⟩

end ShaderHeader
