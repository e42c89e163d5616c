import ShaderHeader.Header.Declarations
import ShaderHeader.Proofs.SlotMerge

/-!
# Conflicts between slots

The resources of a compilation fail to share their slots exactly if a name comes first on two slots.
A resource that finds its slot taken is not looked at any further, so a name may well be found on
two slots: the constant of the name then has only one of them, and the resource on the other slot is
reported as one that has lost it.
-/

namespace ShaderHeader

open Check

/-! ### Claims that fail -/

section Claims

variable {α : Type} [Resource α] {rs qs : List α} {q r : α} {t t' : SlotTable α}

/-- No name comes first on two slots. -/
def NamesFit (rs : List α) : Prop :=
  ∀ q r, IsFirst rs q → IsFirst rs r → Resource.name q = Resource.name r →
    Resource.slot q = Resource.slot r

namespace SlotTable

/-- A resource clashes with one in front of it that is first on another slot and has its name,
provided that the resource comes first on its own slot. -/
def ClashesWith (rs : List α) (r q : α) : Prop :=
  firstOn? rs (Resource.slot r) = none ∧ IsFirst rs q ∧ Resource.name q = Resource.name r

/-- A claim fails because of a clash, and the fault names both slots. -/
lemma Merges.claim_eq_error_iff (h : t.Merges rs) {fault : Fault} :
    t.claim r = .error fault ↔
      ∃ q, ClashesWith rs r q ∧ fault = .slotConflict (Resource.kind α) (Resource.name r)
        (Resource.slot q) (Resource.slot r) := by
  rw [SlotTable.claim_eq_error_iff, h.holder?_eq]
  constructor
  · rintro ⟨hfree, q, hq, hfault⟩
    exact ⟨q, ⟨hfree, h.named?_eq_some_iff.mp hq⟩, hfault⟩
  · rintro ⟨q, ⟨hfree, hq⟩, hfault⟩
    exact ⟨hfree, q, h.named?_eq_some_iff.mpr hq, hfault⟩

/-- Holders have distinct names, so no name has come first on two slots. -/
lemma Merges.namesFit (h : t.Merges rs) : NamesFit rs := by
  intro q r hq hr hname
  have heq : q = r := List.inj_on_of_nodup_map h.nodup_names (h.mem_holders_iff.mpr hq)
    (h.mem_holders_iff.mpr hr) hname
  rw [heq]

/-- If names fit then nothing clashes. -/
lemma Merges.exists_claim (h : t.Merges rs) (hfit : NamesFit (rs ++ r :: qs)) :
    ∃ t', t.claim r = .ok t' := by
  cases hclaim : t.claim r with
  | ok t' => exact ⟨t', rfl⟩
  | error fault =>
    obtain ⟨q, ⟨hfree, hq, hname⟩, -⟩ := h.claim_eq_error_iff.mp hclaim
    have hr : IsFirst (rs ++ r :: qs) r := by
      rw [IsFirst, firstOn?_append, hfree]
      simp [firstOn?]
    have hslot := hfit q r (hq.append _) hr hname
    rw [← hslot, hq] at hfree
    cases hfree

lemma Merges.exists_foldlM_claim (h : t.Merges rs) (hfit : NamesFit (rs ++ qs)) :
    ∃ t', qs.foldlM SlotTable.claim t = .ok t' := by
  induction qs generalizing t rs with
  | nil => exact ⟨t, rfl⟩
  | cons q qs ih =>
    obtain ⟨t₁, hfirst⟩ := h.exists_claim hfit
    obtain ⟨t', hrest⟩ := ih (h.claim hfirst) (by rwa [List.append_assoc])
    exact ⟨t', by rw [List.foldlM_cons]; exact bind_eq_ok_iff.mpr ⟨t₁, hfirst, hrest⟩⟩

/-- Resources can share their slots exactly if their names fit. -/
lemma exists_foldlM_claim_iff :
    (∃ t, rs.foldlM SlotTable.claim {} = .ok t) ↔ NamesFit rs := by
  constructor
  · rintro ⟨t, ht⟩
    exact (merges_nil.foldlM_claim ht).namesFit
  · exact fun hfit => merges_nil.exists_foldlM_claim hfit

/-! ### Constants -/

/-- The constants of a table have the slots of all resources of their names, but for those that are
reported as having lost their slot to another name. -/
def Covers (qualifier : String) (t : SlotTable α) (rs : List α) : Prop :=
  ∀ k ∈ t.holders.map (slotConstant qualifier), ∀ r ∈ rs,
    k.name = Naming.slot qualifier (Resource.name r) →
      k.value = Resource.slot r ∨
        ∃ holder, holder ≠ Resource.name r ∧
          .shadowed (Resource.kind α) (Resource.name r) (Resource.slot r) holder ∈ t.shadowed

lemma Merges.covers (h : t.Merges rs) (qualifier : String) : t.Covers qualifier rs := by
  intro k hk r hr hname
  obtain ⟨q, hq, rfl⟩ := List.mem_map.mp hk
  have hname : Resource.name q = Resource.name r := by
    simpa only [slotConstant, Naming.slot, String.append_right_inj] using hname
  obtain ⟨first, hfirst, hslot, hreport⟩ := h.exists_holder hr
  by_cases hkept : Resource.name first = Resource.name r
  · have heq : q = first := List.inj_on_of_nodup_map h.nodup_names hq hfirst
      (hname.trans hkept.symm)
    exact .inl (heq ▸ slot_of_firstOn? hslot)
  · exact .inr ⟨_, hkept, hreport.resolve_left hkept⟩

end SlotTable

end Claims

/-! ### Compilations that fail -/

namespace Bindings

variable {f : ShaderFile} {c : Compilation}

lemma exists_ofCompilation?_iff :
    (∃ b, ofCompilation? f c = .ok b) ↔ NamesFit c.images ∧ NamesFit c.blocks := by
  simp only [ofCompilation?_eq_ok_iff, ← SlotTable.exists_foldlM_claim_iff]
  constructor
  · rintro ⟨b, himages, hblocks⟩
    exact ⟨⟨_, himages⟩, _, hblocks⟩
  · rintro ⟨⟨images, himages⟩, blocks, hblocks⟩
    exact ⟨⟨images, blocks⟩, himages, hblocks⟩

/-- What fails is a claim of a source's resource, and the failure is reported at its snippet. -/
lemma exists_conflict_of_error {e : Failure} (h : ofCompilation? f c = .error e) :
    ∃ s ∈ c.sources, ∃ kind name first second,
      e = f.failure (f.snippetLine s.snippet) (.slotConflict kind name first second) := by
  obtain ⟨s, hs, b, hadd⟩ := exists_of_foldlM_eq_error h
  obtain ⟨fault, hfault, rfl⟩ := mapError_eq_error_iff.mp hadd
  refine ⟨s, hs, ?_⟩
  rcases bind_eq_error_iff.mp hfault with himages | ⟨images, -, hrest⟩
  · obtain ⟨m, -, t, hclaim⟩ := exists_of_foldlM_eq_error himages
    obtain ⟨-, first, -, rfl⟩ := SlotTable.claim_eq_error_iff.mp hclaim
    exact ⟨_, _, _, _, rfl⟩
  · rcases bind_eq_error_iff.mp hrest with hblocks | ⟨blocks, -, hpure⟩
    · obtain ⟨m, -, t, hclaim⟩ := exists_of_foldlM_eq_error hblocks
      obtain ⟨-, first, -, rfl⟩ := SlotTable.claim_eq_error_iff.mp hclaim
      exact ⟨_, _, _, _, rfl⟩
    · cases hpure

end Bindings

/-! ### Names on two slots -/

namespace Sample

/-- Fragment stages with one image each. -/
def withImages (ms : List Image) : Compilation :=
  ⟨ms.zipIdx.map fun (m, n) => ⟨n, "", { stage := .fragment, entry := "main", images := [m] }⟩, []⟩

/-- A name on two slots, one of which another name has come first on. -/
def twoSlots : Compilation :=
  withImages [⟨"tex", 0, .flat⟩, ⟨"mask", 1, .flat⟩, ⟨"tex", 1, .flat⟩]

/-- The same images in an order in which the name comes first on both slots. -/
def twoSlotsFirst : Compilation :=
  withImages [⟨"tex", 0, .flat⟩, ⟨"tex", 1, .flat⟩, ⟨"mask", 1, .flat⟩]

lemma ofCompilation?_twoSlots (f : ShaderFile) :
    Bindings.ofCompilation? f twoSlots =
      .ok ⟨⟨[⟨"tex", 0, .flat⟩, ⟨"mask", 1, .flat⟩], [.shadowed .image "tex" 1 "mask"]⟩, {}⟩ := rfl

end Sample

namespace Bindings

/-- A name on two slots can pass, and then its constant does not have the slot of every resource of
the name. -/
theorem exists_name_on_two_slots :
    (¬ ∀ (f : ShaderFile) (c : Compilation),
      (∃ q ∈ c.images, ∃ r ∈ c.images, q.name = r.name ∧ q.slot ≠ r.slot) →
        ∃ e, ofCompilation? f c = .error e) ∧
    ¬ ∀ (f : ShaderFile) (c : Compilation) (b : Bindings), ofCompilation? f c = .ok b →
      ∀ k ∈ imageConstants f b, ∀ r ∈ c.images, k.name = Naming.slot f.qualifier r.name →
        k.value = r.slot := by
  constructor
  · intro h
    obtain ⟨e, he⟩ := h { path := "quad.glsl" } Sample.twoSlots
      ⟨⟨"tex", 0, .flat⟩, by decide, ⟨"tex", 1, .flat⟩, by decide, rfl, by decide⟩
    rw [Sample.ofCompilation?_twoSlots] at he
    cases he
  · intro h
    have hvalue := h { path := "quad.glsl" } Sample.twoSlots _ (Sample.ofCompilation?_twoSlots _)
      ⟨"SLOT_tex", 0⟩ (by decide) ⟨"tex", 1, .flat⟩ (by decide) rfl
    cases hvalue

/-- The resources of a compilation fail to share their slots exactly if some name comes first on two
slots, and this is an inconsistency of the shader file. If they do share them, then the constant of
a name has the slot of every resource of the name, unless a warning says that the resource has lost
its slot to another name. -/
theorem fails_iff_first_on_two_slots (f : ShaderFile) (c : Compilation) :
    ((∃ e, ofCompilation? f c = .error e) ↔ ¬ (NamesFit c.images ∧ NamesFit c.blocks)) ∧
      (∀ e, ofCompilation? f c = .error e → e.fault.category = .consistency) ∧
      ∀ b, ofCompilation? f c = .ok b →
        b.images.Covers f.qualifier c.images ∧ b.blocks.Covers f.qualifier c.blocks := by
  refine ⟨?_, ?_, ?_⟩
  · rw [← exists_ofCompilation?_iff (f := f)]
    cases ofCompilation? f c <;> simp
  · intro e he
    obtain ⟨s, -, kind, name, first, second, rfl⟩ := exists_conflict_of_error he
    rfl
  · intro b hb
    exact ⟨(merges_images hb).covers _, (merges_blocks hb).covers _⟩

end Bindings

/-- The order of the images decides whether they can share their slots. -/
theorem Sample.fails_or_covers_of_twoSlots :
    (∃ e, Bindings.ofCompilation? { path := "quad.glsl" } twoSlotsFirst = .error e ∧
      e.fault.category = .consistency) ∧
    ∃ b, Bindings.ofCompilation? { path := "quad.glsl" } twoSlots = .ok b ∧
      b.images.Covers "" twoSlots.images := by
  constructor
  · obtain ⟨hiff, hcategory, -⟩ :=
      Bindings.fails_iff_first_on_two_slots { path := "quad.glsl" } twoSlotsFirst
    have hunfit : ¬ NamesFit twoSlotsFirst.images := by
      intro hfit
      cases hfit ⟨"tex", 0, .flat⟩ ⟨"tex", 1, .flat⟩ rfl rfl rfl
    obtain ⟨e, he⟩ := hiff.mpr fun h => hunfit h.1
    exact ⟨e, he, hcategory e he⟩
  · obtain ⟨-, -, hcovers⟩ :=
      Bindings.fails_iff_first_on_two_slots { path := "quad.glsl" } twoSlots
    exact ⟨_, ofCompilation?_twoSlots _, (hcovers _ (ofCompilation?_twoSlots _)).1⟩

end ShaderHeader
