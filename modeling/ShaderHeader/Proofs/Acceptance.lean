import ShaderHeader.Proofs.Header
import ShaderHeader.Proofs.Layout
import ShaderHeader.Proofs.SlotConflict

/-!
# Accepted compilations

There is an edition for a dialect exactly if its compilation is well-formed. What this takes is said
part by part, without the checks: of blocks, of interfaces, of programs and of the compilation as a
whole.
-/

namespace ShaderHeader

open Check

variable {f : ShaderFile} {d : Dialect} {c : Compilation} {cs : Compilations}

/-! ### Blocks -/

/-- Uniforms that follow one another do not overlap, however far apart they are. -/
lemma followFrom_iff {cursor : Nat} {us : List Uniform} :
    FollowFrom cursor us ↔
      (∀ u ∈ us, 0 < u.count ∧ cursor ≤ u.offset ∧ u.stop < wordLimit) ∧
        us.Pairwise fun u v => u.stop ≤ v.offset := by
  induction us generalizing cursor with
  | nil => simp [FollowFrom]
  | cons u us ih =>
    rw [FollowFrom, ih, List.forall_mem_cons, List.pairwise_cons]
    constructor
    · rintro ⟨hcount, hcursor, hstop, hrest, hpairwise⟩
      have hle : u.offset ≤ u.stop := Nat.le_add_right _ _
      refine ⟨⟨⟨Nat.pos_of_ne_zero hcount, hcursor, hstop⟩, fun v hv => ?_⟩,
        fun v hv => (hrest v hv).2.1, hpairwise⟩
      -- what follows the end of the first uniform follows the cursor too
      obtain ⟨hcount', hcursor', hstop'⟩ := hrest v hv
      exact ⟨hcount', by omega, hstop'⟩
    · rintro ⟨⟨⟨hcount, hcursor, hstop⟩, hrest⟩, hfollow, hpairwise⟩
      exact ⟨Nat.ne_of_gt hcount, hcursor, hstop,
        fun v hv => ⟨(hrest v hv).1, hfollow v hv, (hrest v hv).2.2⟩, hpairwise⟩

/-- A block that a packed struct can reproduce. -/
structure Block.IsWellFormed (b : Block) : Prop where
  /-- The declared size can be rounded up. -/
  size_lt : strideAbove b.size < wordLimit
  /-- No array is empty. -/
  count_pos : ∀ u ∈ b.uniforms, 0 < u.count
  /-- Every uniform can be counted in words. -/
  stop_lt : ∀ u ∈ b.uniforms, u.stop < wordLimit
  /-- Every uniform ends before the next one starts. -/
  ascending : b.uniforms.Pairwise fun u v => u.stop ≤ v.offset
  /-- The last uniform ends within the declared size. -/
  stop_le : b.stop ≤ strideAbove b.size

lemma Block.exists_hostStruct_iff {types : NameTable String} {b : Block} :
    (∃ s, HostStruct.ofBlock? types b = .ok s) ↔ b.IsWellFormed := by
  have hsize : b.size + 15 < wordLimit ↔ strideAbove b.size < wordLimit := by
    unfold strideAbove wordLimit; omega
  simp only [HostStruct.ofBlock?_eq_ok_iff, followFrom_iff, hsize]
  constructor
  · rintro ⟨-, hlt, ⟨hall, hpairwise⟩, hle, -⟩
    exact ⟨hlt, fun u hu => (hall u hu).1, fun u hu => (hall u hu).2.2, hpairwise, hle⟩
  · rintro ⟨hlt, hcount, hstop, hpairwise, hle⟩
    exact ⟨_, hlt, ⟨fun u hu => ⟨hcount u hu, Nat.zero_le _, hstop u hu⟩, hpairwise⟩, hle, rfl⟩

/-! ### Interfaces -/

/-- An interface that fits the runtime's tables and whose blocks have structs. -/
structure Interface.IsWellFormed (i : Interface) : Prop where
  block_lt : ∀ b ∈ i.blocks, b.slot < 4
  nodup_blocks : (i.blocks.map Block.slot).Nodup
  image_lt : ∀ m ∈ i.images, m.slot < 12
  nodup_images : (i.images.map Image.slot).Nodup
  blocks : ∀ b ∈ i.blocks, b.IsWellFormed

lemma checkSource_eq_ok_iff_isWellFormed {s : Source} :
    checkSource f s = .ok () ↔ s.interface.IsWellFormed := by
  simp only [checkSource_eq_ok_iff, checkInterface_eq_ok_iff, checkSlots_eq_ok_iff,
    Block.exists_hostStruct_iff, List.not_mem_nil, not_false_eq_true, and_true]
  constructor
  · rintro ⟨⟨hblock, hnodup⟩, ⟨himage, hnodup'⟩, hblocks⟩
    exact ⟨hblock, hnodup, himage, hnodup', hblocks⟩
  · rintro ⟨hblock, hnodup, himage, hnodup', hblocks⟩
    exact ⟨⟨hblock, hnodup⟩, ⟨himage, hnodup'⟩, hblocks⟩

/-! ### Programs -/

/-- The first snippet of a name is at this position, and it is code of this stage. -/
structure ShaderFile.HasStageAt (f : ShaderFile) (name : String) (stage : Stage) (position : Nat) :
    Prop where
  exists_snippet : ∃ s, f.snippets[position]? = some s ∧ s.name = name ∧ s.kind = .stage stage
  first : ∀ s ∈ f.snippets.take position, s.name ≠ name

lemma ShaderFile.findSnippet?_eq_some_iff {name : String} {position : Nat} :
    f.findSnippet? name = some position ↔
      (∃ s, f.snippets[position]? = some s ∧ s.name = name) ∧
        ∀ s ∈ f.snippets.take position, s.name ≠ name := by
  simp only [findSnippet?, List.findIdx?_eq_some_iff_getElem, decide_eq_true_eq]
  constructor
  · rintro ⟨hlt, hname, hbefore⟩
    refine ⟨⟨_, List.getElem?_eq_getElem hlt, hname⟩, ?_⟩
    intro s hs
    obtain ⟨i, hi, rfl⟩ := List.mem_take_iff_getElem.mp hs
    exact hbefore i (by omega)
  · rintro ⟨⟨s, hs, rfl⟩, hbefore⟩
    obtain ⟨hlt, rfl⟩ := List.getElem?_eq_some_iff.mp hs
    refine ⟨hlt, rfl, ?_⟩
    intro i hi
    exact hbefore _ (List.mem_take_iff_getElem.mpr ⟨i, by omega, rfl⟩)

/-- A stage can be linked if its snippet is there and has been compiled. -/
lemma linkStage?_eq_ok_iff_hasStageAt {p : Program} {stage : Stage} {l : LinkedStage} :
    linkStage? f d c p stage = .ok l ↔
      ∃ position, f.HasStageAt (p.snippet stage) stage position ∧
        f.snippets[position]? = some l.snippet ∧ c.source? position = some l.source ∧
          c.blob? position = l.blob := by
  rw [linkStage?_eq_ok_iff]
  constructor
  · rintro ⟨position, hfind, hget, hkind, hsource, hblob⟩
    obtain ⟨⟨s, hs, hname⟩, hfirst⟩ := ShaderFile.findSnippet?_eq_some_iff.mp hfind
    obtain rfl : s = l.snippet := Option.some.inj (hs.symm.trans hget)
    exact ⟨position, ⟨⟨_, hget, hname, hkind⟩, hfirst⟩, hget, hsource, hblob⟩
  · rintro ⟨position, ⟨⟨s, hs, hname, hkind⟩, hfirst⟩, hget, hsource, hblob⟩
    obtain rfl : s = l.snippet := Option.some.inj (hs.symm.trans hget)
    exact ⟨position, ShaderFile.findSnippet?_eq_some_iff.mpr ⟨⟨_, hget, hname⟩, hfirst⟩, hget,
      hkind, hsource, hblob⟩

/-- Tables without a first difference are the same everywhere. -/
lemma firstDifference?_eq_none_iff {t u : AttributeTable} :
    firstDifference? t u = none ↔ ∀ i : Fin attributeCapacity, t[i] = u[i] := by
  rw [firstDifference?, List.find?_eq_none]
  constructor
  · intro h i
    have hmem : ((t[i], u[i]), i.val) ∈ (t.toList.zip u.toList).zipIdx := by
      rw [List.mem_zipIdx_iff_getElem?]
      simp
    simpa using h _ hmem
  · rintro h ⟨⟨a, b⟩, i⟩ hmem
    obtain ⟨ha, hb⟩ : t.toList[i]? = some a ∧ u.toList[i]? = some b :=
      List.getElem?_zip_eq_some.mp (List.mem_zipIdx_iff_getElem?.mp hmem)
    obtain ⟨hi, rfl⟩ := List.getElem?_eq_some_iff.mp ha
    obtain ⟨hi', rfl⟩ := List.getElem?_eq_some_iff.mp hb
    simpa using h ⟨i, by simpa using hi⟩

lemma checkLink_eq_ok_iff {l : LinkedProgram} :
    checkLink f l = .ok () ↔ ∀ i : Fin attributeCapacity,
      l.vertex.source.interface.outputs[i] = l.fragment.source.interface.inputs[i] := by
  rw [← firstDifference?_eq_none_iff, checkLink]
  split <;> simp [*]

/-- The stages of a program exist, and what leaves the first one is what enters the second one. -/
def Program.IsWellFormed (f : ShaderFile) (c : Compilation) (p : Program) : Prop :=
  ∃ v g vertex fragment, f.HasStageAt p.vertex .vertex v ∧ f.HasStageAt p.fragment .fragment g ∧
    c.source? v = some vertex ∧ c.source? g = some fragment ∧
      ∀ i : Fin attributeCapacity, vertex.interface.outputs[i] = fragment.interface.inputs[i]

lemma exists_linkChecked?_iff {p : Program} :
    (∃ l, linkChecked? f d c p = .ok l) ↔ p.IsWellFormed f c := by
  simp only [linkChecked?_eq_ok_iff, linkProgram?_eq_ok_iff, linkStage?_eq_ok_iff_hasStageAt,
    checkLink_eq_ok_iff]
  constructor
  · rintro ⟨l, ⟨rfl, hstages⟩, hlink⟩
    obtain ⟨v, hv, -, hvertex, -⟩ := hstages .vertex
    obtain ⟨g, hg, -, hfragment, -⟩ := hstages .fragment
    exact ⟨v, g, _, _, hv, hg, hvertex, hfragment, hlink⟩
  · rintro ⟨v, g, vertex, fragment, hv, hg, hvertex, hfragment, hlink⟩
    obtain ⟨s, hs, -⟩ := hv.exists_snippet
    obtain ⟨s', hs', -⟩ := hg.exists_snippet
    refine ⟨⟨p, ⟨s, vertex, c.blob? v⟩, ⟨s', fragment, c.blob? g⟩⟩, ⟨rfl, ?_⟩, hlink⟩
    intro stage
    cases stage with
    | vertex   => exact ⟨v, hv, hs, hvertex, rfl⟩
    | fragment => exact ⟨g, hg, hs', hfragment, rfl⟩

/-! ### Compilations -/

lemma checkSnippet_eq_ok_iff {s : Snippet × Nat} :
    checkSnippet f d c s = .ok () ↔
      (s.1.isStage = true → ∃ source ∈ c.sources, source.snippet = s.2) := by
  rw [checkSnippet]
  split_ifs with h
  · simp_all [Compilation.source?]
  · simp_all [Compilation.source?]

lemma checkBlobs_eq_ok_iff :
    checkBlobs f d c = .ok () ↔ (c.blobs ≠ [] → d.takesBytecode = true) := by
  cases htakes : d.takesBytecode with
  | true => simp [checkBlobs, htakes]
  | false =>
    cases hblobs : c.blobs with
    | nil      => simp [checkBlobs, hblobs]
    | cons _ _ => simp [checkBlobs, htakes, hblobs]

/-- A compilation that is complete and whose parts are well-formed and fit one another. -/
structure Compilation.IsWellFormed (f : ShaderFile) (d : Dialect) (c : Compilation) : Prop where
  /-- The code of every stage has been compiled. -/
  compiled : ∀ position s, f.snippets[position]? = some s → s.isStage = true →
    ∃ source ∈ c.sources, source.snippet = position
  interfaces : ∀ s ∈ c.sources, s.interface.IsWellFormed
  bytecode : c.blobs ≠ [] → d.takesBytecode = true
  programs : ∀ p ∈ f.programs.values, p.IsWellFormed f c
  images : NamesFit c.images
  blocks : NamesFit c.blocks

lemma Edition.exists_check?_iff :
    (∃ e, Edition.check? f d cs = .ok e) ↔ ∃ c, cs d = some c ∧ c.IsWellFormed f d := by
  simp only [check?_eq_ok_iff, checkSource_eq_ok_iff_isWellFormed, checkSnippet_eq_ok_iff,
    checkBlobs_eq_ok_iff]
  constructor
  · rintro ⟨e, -, hc, hsnippets, hsources, hblobs, hprograms, hbindings⟩
    obtain ⟨himages, hblocks⟩ := Bindings.exists_ofCompilation?_iff.mp ⟨_, hbindings⟩
    refine ⟨e.compilation, hc, ⟨?_, hsources, hblobs, ?_, himages, hblocks⟩⟩
    · intro position s hs
      exact hsnippets (s, position) (List.mem_zipIdx_iff_getElem?.mpr hs)
    · intro p hp
      exact exists_linkChecked?_iff.mp (exists_forall₂_iff.mp ⟨_, hprograms⟩ p hp)
  · rintro ⟨c, hc, h⟩
    -- the conditions give programs and bindings, and with them the edition
    obtain ⟨bindings, hbindings⟩ := Bindings.exists_ofCompilation?_iff (f := f).mpr
      ⟨h.images, h.blocks⟩
    obtain ⟨programs, hprograms⟩ := exists_forall₂_iff.mpr fun p hp =>
      exists_linkChecked?_iff (d := d).mpr (h.programs p hp)
    refine ⟨⟨d, c, programs, bindings⟩, rfl, hc, ?_, h.interfaces, h.bytecode, hprograms,
      hbindings⟩
    rintro ⟨s, position⟩ hs
    exact h.compiled position s (List.mem_zipIdx_iff_getElem?.mp hs)

/-! ### Editions -/

/-- What an edition has for each stage of its programs: the first snippet of the name, with the
first source and the first bytecode of this snippet. -/
lemma Edition.hasStageAt_of_mem_programs {e : Edition} (h : Edition.check? f d cs = .ok e)
    {l : LinkedProgram} (hl : l ∈ e.programs) (stage : Stage) :
    ∃ position, f.HasStageAt (l.program.snippet stage) stage position ∧
      f.snippets[position]? = some (l.stage stage).snippet ∧
      e.compilation.source? position = some (l.stage stage).source ∧
      e.compilation.blob? position = (l.stage stage).blob :=
  linkStage?_eq_ok_iff_hasStageAt.mp (linkStage?_of_mem_programs h hl stage)

/-- There is an edition exactly for a compilation that is well-formed. It is made of this
compilation, of the file's programs in the order of their names, each with what has been compiled
from its snippets, and of the images and blocks that come first on their slots. -/
theorem Edition.accepts_wellFormed (f : ShaderFile) (d : Dialect) (cs : Compilations) :
    ((∃ e, Edition.check? f d cs = .ok e) ↔ ∃ c, cs d = some c ∧ c.IsWellFormed f d) ∧
    ∀ e, Edition.check? f d cs = .ok e →
      e.dialect = d ∧ cs d = some e.compilation ∧
      e.programs.map LinkedProgram.program = f.programs.values ∧
      (∀ l ∈ e.programs, ∀ stage, ∃ position,
        f.HasStageAt (l.program.snippet stage) stage position ∧
        f.snippets[position]? = some (l.stage stage).snippet ∧
        e.compilation.source? position = some (l.stage stage).source ∧
        e.compilation.blob? position = (l.stage stage).blob) ∧
      (∀ m, m ∈ e.bindings.images.holders ↔ IsFirst e.compilation.images m) ∧
      (∀ b, b ∈ e.bindings.blocks.holders ↔ IsFirst e.compilation.blocks b) := by
  refine ⟨exists_check?_iff, ?_⟩
  intro e h
  obtain ⟨hdialect, hc, -, -, -, -, hbindings⟩ := check?_eq_ok_iff.mp h
  exact ⟨hdialect, hc, map_program_of_check? h,
    fun l hl stage => hasStageAt_of_mem_programs h hl stage,
    fun _ => (Bindings.merges_images hbindings).mem_holders_iff,
    fun _ => (Bindings.merges_blocks hbindings).mem_holders_iff⟩

namespace Sample

/-- The small file with bytecode for its fragment stage. -/
def assembled : Compilation :=
  compilation [sky, diffuse] [⟨1, [0xde, 0xad]⟩]

/-- The same compilation is accepted for a dialect that takes bytecode and refused for one that does
not. -/
theorem accepts_wellFormed_of_assembled :
    (∃ e, Edition.check? file .hlsl5 (.ofList [(.hlsl5, assembled)]) = .ok e ∧
      e.programs.map LinkedProgram.program = [⟨"quad", "vs", "fs", 30⟩] ∧
      sky ∈ e.bindings.images.holders) ∧
    assembled.IsWellFormed file .hlsl5 ∧
    ¬ ∃ e, Edition.check? file .glsl330 (.ofList [(.glsl330, assembled)]) = .ok e := by
  have hcheck : ∃ e, Edition.check? file .hlsl5 (.ofList [(.hlsl5, assembled)]) = .ok e ∧
      e.compilation = assembled := exists_of_map_toOption (by decide +kernel)
  obtain ⟨e, he, hcompilation⟩ := hcheck
  obtain ⟨hiff, hok⟩ := Edition.accepts_wellFormed file .hlsl5 (.ofList [(.hlsl5, assembled)])
  obtain ⟨-, -, hprograms, -, himages, -⟩ := hok e he
  obtain ⟨c, hc, hwell⟩ := hiff.mp ⟨e, he⟩
  obtain rfl : assembled = c := Option.some.inj hc
  refine ⟨⟨e, he, hprograms, (himages sky).mpr ?_⟩, hwell, ?_⟩
  · rw [hcompilation]
    rfl
  · obtain ⟨hiff', -⟩ := Edition.accepts_wellFormed file .glsl330 (.ofList [(.glsl330, assembled)])
    rw [hiff']
    rintro ⟨c', hc', hwell'⟩
    obtain rfl : assembled = c' := Option.some.inj hc'
    exact absurd (hwell'.bytecode (by decide)) (by decide)

end Sample

end ShaderHeader
