import Mathlib.Tactic.Common
import ShaderHeader.Edition.Agreement
import ShaderHeader.Proofs.Check

/-!
# Editions

What a successful `Edition.check?` says, check by check. A proof about editions uses these lemmas
and never looks into a check again.
-/

namespace ShaderHeader

open Check

/-! ### Sources -/

/-- Slots are accepted if they lie within the table and are neither taken nor repeated. -/
lemma checkSlots_eq_ok_iff {α : Type} [Resource α] {taken : List Nat} {rs : List α} :
    checkSlots taken rs = .ok () ↔
      (∀ r ∈ rs, Resource.slot r < (Resource.kind α).capacity ∧ Resource.slot r ∉ taken) ∧
        (rs.map Resource.slot).Nodup := by
  induction rs generalizing taken with
  | nil => simp [checkSlots]
  | cons r rs ih =>
    simp only [checkSlots]
    split_ifs with hcap htaken
    · simp only [List.forall_mem_cons, false_iff]
      rintro ⟨⟨h, -⟩, -⟩
      omega
    · simp only [List.forall_mem_cons, false_iff]
      rintro ⟨⟨h, -⟩, -⟩
      exact h.2 htaken
    · -- the slot is free, and it is taken for all that follow
      rw [ih, List.map_cons, List.nodup_cons, List.forall_mem_cons]
      simp only [List.mem_cons, not_or, List.mem_map, not_exists, not_and]
      constructor
      · rintro ⟨h, hnd⟩
        exact ⟨⟨⟨Nat.lt_of_not_le hcap, htaken⟩, fun r' hr' => ⟨(h r' hr').1, (h r' hr').2.2⟩⟩,
          fun r' hr' => (h r' hr').2.1, hnd⟩
      · rintro ⟨⟨-, h⟩, hne, hnd⟩
        exact ⟨fun r' hr' => ⟨(h r' hr').1, hne r' hr', (h r' hr').2⟩, hnd⟩

lemma checkBlock_eq_ok_iff {types : NameTable String} {b : Block} :
    checkBlock types b = .ok () ↔ ∃ s, HostStruct.ofBlock? types b = .ok s := by
  rw [checkBlock]
  split <;> simp [*]

/-- An interface is accepted if its slots are and if every block has a host struct. -/
lemma checkInterface_eq_ok_iff {types : NameTable String} {i : Interface} :
    checkInterface types i = .ok () ↔
      checkSlots [] i.blocks = .ok () ∧ checkSlots [] i.images = .ok () ∧
        ∀ b ∈ i.blocks, ∃ s, HostStruct.ofBlock? types b = .ok s := by
  simp only [checkInterface, bind_eq_ok_iff, forM_eq_ok_iff, checkBlock_eq_ok_iff]
  exact ⟨fun ⟨_, hb, _, hi, h⟩ => ⟨hb, hi, h⟩, fun ⟨hb, hi, h⟩ => ⟨_, hb, _, hi, h⟩⟩

variable {f : ShaderFile} {d : Dialect} {c : Compilation} {cs : Compilations}

lemma checkSource_eq_ok_iff {s : Source} :
    checkSource f s = .ok () ↔ checkInterface f.types s.interface = .ok () :=
  mapError_eq_ok_iff

/-! ### Programs -/

/-- A stage is linked to the first snippet of its name, which is code of the stage, and to what has
been compiled from this snippet. -/
lemma linkStage?_eq_ok_iff {p : Program} {stage : Stage} {l : LinkedStage} :
    linkStage? f d c p stage = .ok l ↔
      ∃ position, f.findSnippet? (p.snippet stage) = some position ∧
        f.snippets[position]? = some l.snippet ∧ l.snippet.kind = .stage stage ∧
        c.source? position = some l.source ∧ c.blob? position = l.blob := by
  obtain ⟨snippet, source, blob⟩ := l
  simp only [linkStage?]
  cases hfind : f.findSnippet? (p.snippet stage) with
  | none => simp
  | some position =>
    cases hget : f.snippets[position]? with
    | none => simp [hget]
    | some s =>
      by_cases hkind : s.kind = .stage stage
      · cases hsource : c.source? position with
        | none => simp [hkind, hsource, hget]
        | some src =>
          simp only [hkind, hsource, hget, ne_eq, not_true_eq_false, if_false, Except.ok.injEq,
            LinkedStage.mk.injEq, Option.some.injEq, exists_eq_left']
          exact ⟨fun ⟨hs, hsrc, hb⟩ => ⟨hs, hs ▸ hkind, hsrc, hb⟩,
            fun ⟨hs, _, hsrc, hb⟩ => ⟨hs, hsrc, hb⟩⟩
      · -- a snippet of another kind is refused, and the right side excludes it
        simp only [hkind, ne_eq, not_false_eq_true, if_true, reduceCtorEq, Option.some.injEq,
          exists_eq_left', hget, false_iff]
        rintro ⟨rfl, h, -⟩
        exact hkind h

/-- The snippet of a stage is that of the file, whatever has been compiled from it. -/
lemma snippet_eq_of_linkStage? {d' : Dialect} {c' : Compilation} {p : Program} {stage : Stage}
    {l l' : LinkedStage} (h : linkStage? f d c p stage = .ok l)
    (h' : linkStage? f d' c' p stage = .ok l') : l.snippet = l'.snippet := by
  obtain ⟨position, hfind, hget, -⟩ := linkStage?_eq_ok_iff.mp h
  obtain ⟨position', hfind', hget', -⟩ := linkStage?_eq_ok_iff.mp h'
  obtain rfl : position = position' := Option.some.inj (hfind.symm.trans hfind')
  exact Option.some.inj (hget.symm.trans hget')

/-- Linking a program links both of its stages. -/
lemma linkProgram?_eq_ok_iff {p : Program} {l : LinkedProgram} :
    linkProgram? f d c p = .ok l ↔
      l.program = p ∧ ∀ stage, linkStage? f d c p stage = .ok (l.stage stage) := by
  obtain ⟨program, vertex, fragment⟩ := l
  simp only [linkProgram?, bind_eq_ok_iff, pure_eq_ok_iff, LinkedProgram.mk.injEq]
  constructor
  · rintro ⟨v, hv, fr, hf, rfl, rfl, rfl⟩
    refine ⟨rfl, ?_⟩
    intro stage
    cases stage with
    | vertex   => exact hv
    | fragment => exact hf
  · rintro ⟨rfl, h⟩
    exact ⟨vertex, h .vertex, fragment, h .fragment, rfl, rfl, rfl⟩

lemma linkChecked?_eq_ok_iff {p : Program} {l : LinkedProgram} :
    linkChecked? f d c p = .ok l ↔ linkProgram? f d c p = .ok l ∧ checkLink f l = .ok () := by
  simp only [linkChecked?, bind_eq_ok_iff, pure_eq_ok_iff]
  constructor
  · rintro ⟨l', hl, _, hc, rfl⟩
    exact ⟨hl, hc⟩
  · rintro ⟨hl, hc⟩
    exact ⟨l, hl, (), hc, rfl⟩

/-! ### Editions -/

namespace Edition

/-- An edition consists of the compilation for its dialect, of all programs of the file, linked to
it, and of its bindings, if every check succeeds. -/
lemma check?_eq_ok_iff {e : Edition} :
    Edition.check? f d cs = .ok e ↔
      e.dialect = d ∧ cs d = some e.compilation ∧
        (∀ s ∈ f.snippets.zipIdx, checkSnippet f d e.compilation s = .ok ()) ∧
        (∀ s ∈ e.compilation.sources, checkSource f s = .ok ()) ∧
        checkBlobs f d e.compilation = .ok () ∧
        List.Forall₂ (fun p l => linkChecked? f d e.compilation p = .ok l)
          f.programs.values e.programs ∧
        Bindings.ofCompilation? f e.compilation = .ok e.bindings := by
  obtain ⟨dialect, compilation, programs, bindings⟩ := e
  rw [check?]
  cases hcs : cs d with
  | none => simp
  | some c =>
    simp only [bind_eq_ok_iff, forM_eq_ok_iff, mapM_eq_ok_iff, pure_eq_ok_iff, Edition.mk.injEq,
      Option.some.injEq]
    constructor
    · rintro ⟨_, hsnip, _, hsrc, _, hblob, ps, hps, bs, hbs, rfl, rfl, rfl, rfl⟩
      exact ⟨rfl, rfl, hsnip, hsrc, hblob, hps, hbs⟩
    · rintro ⟨rfl, rfl, hsnip, hsrc, hblob, hps, hbs⟩
      exact ⟨(), hsnip, (), hsrc, (), hblob, programs, hps, bindings, hbs, rfl, rfl, rfl, rfl⟩

variable {e : Edition}

/-- The linked programs are the programs of the file, in the file's order. -/
lemma map_program_of_check? (h : Edition.check? f d cs = .ok e) :
    e.programs.map LinkedProgram.program = f.programs.values := by
  obtain ⟨-, -, -, -, -, hps, -⟩ := check?_eq_ok_iff.mp h
  have hprog : f.programs.values.map id = e.programs.map LinkedProgram.program :=
    map_eq_of_forall₂ hps fun p l hl =>
      (linkProgram?_eq_ok_iff.mp (linkChecked?_eq_ok_iff.mp hl).1).1.symm
  rw [← hprog, List.map_id]

/-- Every linked program has been linked to the compilation. -/
lemma linkProgram?_of_mem_programs (h : Edition.check? f d cs = .ok e) {l : LinkedProgram}
    (hl : l ∈ e.programs) : linkProgram? f d e.compilation l.program = .ok l := by
  obtain ⟨-, -, -, -, -, hps, -⟩ := check?_eq_ok_iff.mp h
  obtain ⟨p, -, hp⟩ := exists_mem_of_forall₂ hps hl
  have hlink := (linkChecked?_eq_ok_iff.mp hp).1
  obtain ⟨rfl, -⟩ := linkProgram?_eq_ok_iff.mp hlink
  exact hlink

lemma linkStage?_of_mem_programs (h : Edition.check? f d cs = .ok e) {l : LinkedProgram}
    (hl : l ∈ e.programs) (stage : Stage) :
    linkStage? f d e.compilation l.program stage = .ok (l.stage stage) :=
  (linkProgram?_eq_ok_iff.mp (linkProgram?_of_mem_programs h hl)).2 stage

/-- A program is linked in one way only. -/
lemma eq_of_program_eq (h : Edition.check? f d cs = .ok e) {l l' : LinkedProgram}
    (hl : l ∈ e.programs) (hl' : l' ∈ e.programs) (heq : l.program = l'.program) : l = l' := by
  have hlink := linkProgram?_of_mem_programs h hl
  rw [heq, linkProgram?_of_mem_programs h hl'] at hlink
  exact (Except.ok.inj hlink).symm

/-- The source of a stage is one of the compilation. -/
lemma source_mem_of_mem_programs (h : Edition.check? f d cs = .ok e) {l : LinkedProgram}
    (hl : l ∈ e.programs) (stage : Stage) : (l.stage stage).source ∈ e.compilation.sources := by
  obtain ⟨position, -, -, -, hsource, -⟩ :=
    linkStage?_eq_ok_iff.mp (linkStage?_of_mem_programs h hl stage)
  exact List.mem_of_find?_eq_some hsource

/-- The source has been compiled from the stage's snippet. -/
lemma snippet_of_mem_programs (h : Edition.check? f d cs = .ok e) {l : LinkedProgram}
    (hl : l ∈ e.programs) (stage : Stage) :
    f.snippets[(l.stage stage).source.snippet]? = some (l.stage stage).snippet := by
  obtain ⟨position, -, hget, -, hsource, -⟩ :=
    linkStage?_eq_ok_iff.mp (linkStage?_of_mem_programs h hl stage)
  have hposition : (l.stage stage).source.snippet = position := by
    simpa using List.find?_some hsource
  rw [hposition, hget]

/-- And it has been checked. -/
lemma checkInterface_of_mem_programs (h : Edition.check? f d cs = .ok e) {l : LinkedProgram}
    (hl : l ∈ e.programs) (stage : Stage) :
    checkInterface f.types (l.stage stage).source.interface = .ok () := by
  obtain ⟨-, -, -, hsrc, -⟩ := check?_eq_ok_iff.mp h
  exact checkSource_eq_ok_iff.mp (hsrc _ (source_mem_of_mem_programs h hl stage))

end Edition

end ShaderHeader
