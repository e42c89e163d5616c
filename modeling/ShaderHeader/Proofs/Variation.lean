import ShaderHeader.Proofs.Acceptance
import ShaderHeader.Proofs.SharedDeclarations

/-!
# Variations of a compilation

The blocks and images of compiled stages vary, and everything else stays as it is: snippets, code,
bytecode and attributes. Then programs are linked as before. As long as the varied stages are
described to the runtime in the same way, sections and constants for locations do not change at all.
-/

namespace ShaderHeader

open Check

/-! ### Related lists -/

section Lists

variable {α β γ : Type} {R : α → β → Prop} {as : List α} {bs : List β}

/-- What is found in related lists by the same property is related. -/
lemma rel_find? {p : α → Bool} {q : β → Bool} (h : List.Forall₂ R as bs)
    (hpq : ∀ a b, R a b → p a = q b) : Option.Rel R (as.find? p) (bs.find? q) := by
  induction h with
  | nil => exact .none
  | @cons a b as bs hab _ ih =>
    rw [List.find?_cons, List.find?_cons, hpq a b hab]
    cases q b with
    | true  => exact .some hab
    | false => exact ih

/-- What is kept of related elements in the same way is the same. -/
lemma filterMap_eq_of_forall₂ {g : α → Option γ} {g' : β → Option γ} (h : List.Forall₂ R as bs)
    (hg : ∀ a b, R a b → g a = g' b) : as.filterMap g = bs.filterMap g' := by
  induction h with
  | nil => rfl
  | cons hab _ ih => rw [List.filterMap_cons, List.filterMap_cons, hg _ _ hab, ih]

/-- If every counterpart has a further one then so has the list of them. -/
lemma exists_forall₂_forall₂ {S : α → γ → Prop} {E : β → γ → Prop} (h : List.Forall₂ R as bs)
    (hE : ∀ a b, R a b → ∃ c, S a c ∧ E b c) :
    ∃ cs, List.Forall₂ S as cs ∧ List.Forall₂ E bs cs := by
  induction h with
  | nil => exact ⟨[], .nil, .nil⟩
  | cons hab _ ih =>
    obtain ⟨c, hac, hbc⟩ := hE _ _ hab
    obtain ⟨cs, hacs, hbcs⟩ := ih
    exact ⟨c :: cs, .cons hac hacs, .cons hbc hbcs⟩

end Lists

/-! ### What varies -/

/-- Two stages have the same attributes, and they are described to the runtime in the same way. -/
structure Interface.SameDescription (i j : Interface) : Prop where
  stage : i.stage = j.stage
  entry : i.entry = j.entry
  inputs : i.inputs = j.inputs
  outputs : i.outputs = j.outputs
  block? : ∀ slot, (i.block? slot).bind Block.entry? = (j.block? slot).bind Block.entry?
  image? : ∀ slot, i.image? slot = j.image? slot

variable (V : Interface → Interface → Prop)

/-- The same code, with an interface that varies. -/
structure Source.Varies (s s' : Source) : Prop where
  snippet : s.snippet = s'.snippet
  code : s.code = s'.code
  interface : V s.interface s'.interface

/-- The same bytecode, with sources that vary. -/
structure Compilation.Varies (c c' : Compilation) : Prop where
  sources : List.Forall₂ (Source.Varies V) c.sources c'.sources
  blobs : c.blobs = c'.blobs

structure LinkedStage.Varies (s s' : LinkedStage) : Prop where
  snippet : s.snippet = s'.snippet
  source : s.source.Varies V s'.source
  blob : s.blob = s'.blob

structure LinkedProgram.Varies (p q : LinkedProgram) : Prop where
  program : p.program = q.program
  stage : ∀ stage, (p.stage stage).Varies V (q.stage stage)

/-- Nothing is said of the bindings, which are made of what varies. -/
structure Edition.Varies (e e' : Edition) : Prop where
  dialect : e.dialect = e'.dialect
  compilation : e.compilation.Varies V e'.compilation
  programs : List.Forall₂ (LinkedProgram.Varies V) e.programs e'.programs

variable {V} {f : ShaderFile} {d : Dialect} {c c' : Compilation} {cs cs' : Compilations}

/-! ### Linking -/

namespace Compilation.Varies

lemma source? (h : c.Varies V c') (n : Nat) :
    Option.Rel (Source.Varies V) (c.source? n) (c'.source? n) :=
  rel_find? h.sources fun s s' hs => by rw [hs.snippet]

lemma blob? (h : c.Varies V c') (n : Nat) : c.blob? n = c'.blob? n := by
  rw [Compilation.blob?, h.blobs, ← Compilation.blob?]

lemma exists_source? (h : c.Varies V c') {n : Nat} {s : Source} (hs : c.source? n = some s) :
    ∃ s', c'.source? n = some s' ∧ s.Varies V s' := by
  have hsources := h.source? n
  rw [hs] at hsources
  generalize c'.source? n = s' at hsources
  cases hsources with
  | some hvaries => exact ⟨_, rfl, hvaries⟩

/-- A stage is linked to the varied source of the same snippet. -/
lemma exists_linkStage? (h : c.Varies V c') {p : Program} {stage : Stage} {l : LinkedStage}
    (hl : linkStage? f d c p stage = .ok l) :
    ∃ l', linkStage? f d c' p stage = .ok l' ∧ l.Varies V l' := by
  obtain ⟨position, hfind, hget, hkind, hsource, hblob⟩ := linkStage?_eq_ok_iff.mp hl
  obtain ⟨s', hsource', hvaries⟩ := h.exists_source? hsource
  exact ⟨⟨l.snippet, s', l.blob⟩, linkStage?_eq_ok_iff.mpr
    ⟨position, hfind, hget, hkind, hsource', h.blob? position ▸ hblob⟩, ⟨rfl, hvaries, rfl⟩⟩

/-- The stages of a program fit each other as before, since attributes do not vary. -/
lemma exists_linkChecked? (hV : ∀ {i j}, V i j → i.SameDescription j) (h : c.Varies V c')
    {p : Program} {l : LinkedProgram} (hl : linkChecked? f d c p = .ok l) :
    ∃ l', linkChecked? f d c' p = .ok l' ∧ l.Varies V l' := by
  obtain ⟨hlink, hfit⟩ := linkChecked?_eq_ok_iff.mp hl
  obtain ⟨rfl, hstages⟩ := linkProgram?_eq_ok_iff.mp hlink
  obtain ⟨v, hv, hvertex⟩ := h.exists_linkStage? (hstages .vertex)
  obtain ⟨g, hg, hfragment⟩ := h.exists_linkStage? (hstages .fragment)
  refine ⟨⟨l.program, v, g⟩, linkChecked?_eq_ok_iff.mpr
    ⟨linkProgram?_eq_ok_iff.mpr ⟨rfl, fun stage => ?_⟩, checkLink_eq_ok_iff.mpr fun i => ?_⟩,
    rfl, fun stage => ?_⟩
  · cases stage with
    | vertex   => exact hv
    | fragment => exact hg
  · -- outputs and inputs do not vary, so they fit as before
    have houtputs := (hV hvertex.source.interface).outputs
    have hinputs := (hV hfragment.source.interface).inputs
    change v.source.interface.outputs[i] = g.source.interface.inputs[i]
    rw [← houtputs, ← hinputs]
    exact checkLink_eq_ok_iff.mp hfit i
  · cases stage with
    | vertex   => exact hvertex
    | fragment => exact hfragment

/-! ### Constants for locations -/

lemma vertexInputs_eq (hV : ∀ {i j}, V i j → i.SameDescription j) (h : c.Varies V c') :
    vertexInputs f c = vertexInputs f c' := by
  refine filterMap_eq_of_forall₂ h.sources fun s s' hs => ?_
  have hsame := hV hs.interface
  simp only [vertexInputs?, Interface.locations, hs.snippet, hsame.stage, hsame.inputs]

lemma locationConstants_eq (hV : ∀ {i j}, V i j → i.SameDescription j) (h : c.Varies V c') :
    locationConstants f c = locationConstants f c' := by
  rw [locationConstants, h.vertexInputs_eq hV, ← locationConstants]

end Compilation.Varies

/-! ### Descriptors -/

lemma LinkedStage.Varies.descriptor_eq (hV : ∀ {i j}, V i j → i.SameDescription j)
    {s s' : LinkedStage} (h : s.Varies V s') (qualifier : String) (stage : Stage) :
    StageDescriptor.ofLinked qualifier d stage s = .ofLinked qualifier d stage s' := by
  have hsame := hV h.source.interface
  simp only [StageDescriptor.ofLinked, LinkedStage.code, h.snippet, h.blob, hsame.entry,
    hsame.block?, hsame.image?]

lemma LinkedProgram.Varies.descriptor_eq (hV : ∀ {i j}, V i j → i.SameDescription j)
    {p q : LinkedProgram} (h : p.Varies V q) (qualifier : String) :
    Descriptor.ofLinked qualifier d p = .ofLinked qualifier d q := by
  have hvertex : p.vertex.Varies V q.vertex := h.stage .vertex
  have hfragment : p.fragment.Varies V q.fragment := h.stage .fragment
  simp only [Descriptor.ofLinked, h.program, (hV hvertex.source.interface).inputs,
    hvertex.descriptor_eq hV, hfragment.descriptor_eq hV]

/-! ### Editions -/

namespace Edition

/-- A varied compilation has an edition if its sources are accepted and can share their slots. -/
lemma exists_check?_of_varies (hV : ∀ {i j}, V i j → i.SameDescription j) {e : Edition}
    (he : Edition.check? f d cs = .ok e) (hc : cs' d = some c')
    (hvaries : e.compilation.Varies V c') (hsources : ∀ s ∈ c'.sources, checkSource f s = .ok ())
    {b : Bindings} (hb : Bindings.ofCompilation? f c' = .ok b) :
    ∃ e', Edition.check? f d cs' = .ok e' ∧ e.Varies V e' ∧ e'.bindings = b := by
  obtain ⟨rfl, -, hsnippets, -, hblobs, hprograms, -⟩ := check?_eq_ok_iff.mp he
  obtain ⟨ps, hlinked, hps⟩ := exists_forall₂_forall₂ hprograms fun p l hl =>
    hvaries.exists_linkChecked? hV hl
  refine ⟨⟨e.dialect, c', ps, b⟩, check?_eq_ok_iff.mpr
    ⟨rfl, hc, fun s hs => ?_, hsources, ?_, hlinked, hb⟩, ⟨rfl, hvaries, hps⟩, rfl⟩
  · refine checkSnippet_eq_ok_iff.mpr fun hstage => ?_
    obtain ⟨source, hsource, hposition⟩ := checkSnippet_eq_ok_iff.mp (hsnippets s hs) hstage
    obtain ⟨source', hsource', hvaried⟩ := exists_mem_of_forall₂ hvaries.sources.flip hsource
    exact ⟨source', hsource', hvaried.snippet.symm.trans hposition⟩
  · rw [checkBlobs_eq_ok_iff] at hblobs ⊢
    rwa [← hvaries.blobs]

variable {e e' : Edition}

/-- What is embedded for a snippet is its code, which does not vary. -/
lemma Varies.embed?_eq (h : e.Varies V e') (s : Snippet × Nat) :
    Section.embed? f e s = Section.embed? f e' s := by
  have hsources := h.compilation.source? s.2
  simp only [Section.embed?, h.dialect, h.compilation.blob? s.2]
  generalize e.compilation.source? s.2 = source, e'.compilation.source? s.2 = source' at hsources ⊢
  cases hsources with
  | none         => rfl
  | some hvaries => simp only [Option.map_some, Embedding.ofSource, hvaries.code]

/-- The section of an edition does not vary. -/
lemma Varies.section_eq (hV : ∀ {i j}, V i j → i.SameDescription j) (h : e.Varies V e')
    (guarded : Bool) : Section.ofEdition f e guarded = Section.ofEdition f e' guarded := by
  have hcode : f.snippets.zipIdx.filterMap (Section.embed? f e) =
      f.snippets.zipIdx.filterMap (Section.embed? f e') :=
    List.filterMap_congr fun s _ => h.embed?_eq s
  have hdescriptors : e.programs.map (Descriptor.ofLinked f.qualifier e'.dialect) =
      e'.programs.map (Descriptor.ofLinked f.qualifier e'.dialect) :=
    map_eq_of_forall₂ h.programs fun p q hpq => hpq.descriptor_eq hV f.qualifier
  simp only [Section.ofEdition, hcode, h.dialect, hdescriptors]

end Edition

/-! ### Headers -/

namespace Header

variable {o : Options} {h : Header} {es : List Edition} {E : Edition → Edition → Prop}

/-- If every edition has a counterpart for other compilations, and if counterparts of editions that
agree do so as well, then the counterparts make a header. -/
lemma MadeFrom.exists_counterpart_header (hmade : MadeFrom f cs o h es)
    (hcheck : ∀ d e, Edition.check? f d cs = .ok e → ∃ e', Edition.check? f d cs' = .ok e' ∧ E e e')
    (hprofile : ∀ {a a' b b'}, E a a' → E b b' → a.profile = b.profile → a'.profile = b'.profile) :
    ∃ h' es', make? f cs' o = .ok h' ∧ MadeFrom f cs' o h' es' ∧ List.Forall₂ E es es' := by
  obtain ⟨es', hchecked, hes⟩ := exists_forall₂_forall₂ hmade.checked hcheck
  obtain ⟨h', hmake', hmade'⟩ := exists_make?_of_profile_eq hchecked fun a' ha b' hb => by
    obtain ⟨a, ha, haa'⟩ := exists_mem_of_forall₂ hes ha
    obtain ⟨b, hb, hbb'⟩ := exists_mem_of_forall₂ hes hb
    exact hprofile haa' hbb' (hmade.profile_eq ha hb)
  exact ⟨h', es', hmake', hmade', hes⟩

/-- Without editions the compilations do not matter. -/
lemma MadeFrom.eq_of_nil {h' : Header} (hmade : MadeFrom f cs o h []) (hmake : make? f cs o = .ok h)
    (hmake' : make? f cs' o = .ok h') : h = h' := by
  have ho : o.dialects.toList = [] := List.forall₂_nil_right_iff.mp hmade.checked
  rw [(make?_eq_ok_iff_of_nil ho).mp hmake, (make?_eq_ok_iff_of_nil ho).mp hmake']

lemma MadeFrom.opening_eq_none (hmade : MadeFrom f cs o h []) : h.opening = none :=
  Option.not_isSome_iff_eq_none.mp (by simp [hmade.opening_eq])

/-- The sections of varied editions are the same. -/
lemma MadeFrom.sections_eq (hV : ∀ {i j}, V i j → i.SameDescription j) {h' : Header}
    {es' : List Edition} (hmade : MadeFrom f cs o h es) (hmade' : MadeFrom f cs' o h' es')
    (hes : List.Forall₂ (Edition.Varies V) es es') : h.sections = h'.sections := by
  rw [hmade.sections, hmade'.sections]
  exact map_eq_of_forall₂ hes fun e e' hvaries => hvaries.section_eq hV o.guarded

end Header

end ShaderHeader
