import ShaderHeader.Proofs.SharedDeclarations

/-!
# Fewer dialects

A header can always be made for some of its dialects only. The first one of them need not be the
first one of all dialects, but all editions have the same profile: so the others still agree with
it, and what it declares is what was declared before.
-/

namespace ShaderHeader

open Check

/-! ### Subsets -/

/-- The dialects of a subset are found in the order in which they stand in the whole set. -/
lemma DialectSet.toList_eq_filter {s t : DialectSet} (hs : ∀ d ∈ s.toList, d ∈ t.toList) :
    s.toList = t.toList.filter s.contains := by
  rw [toList, toList, List.filter_filter]
  apply List.filter_congr
  intro d _
  have hd : s.contains d = true → t.contains d = true := by simpa using hs d
  cases hcontains : s.contains d with
  | false => rfl
  | true  => simp [hd hcontains]

section Pairs

variable {α β γ : Type} {R : α → β → Prop} {as : List α} {bs : List β}

/-- Choosing elements together with their counterparts chooses the elements. -/
lemma map_fst_filter_zip (h : as.length = bs.length) (p : α → Bool) :
    ((as.zip bs).filter fun x => p x.1).map Prod.fst = as.filter p := by
  conv_rhs => rw [← List.map_fst_zip (Nat.le_of_eq h), List.filter_map]
  rfl

/-- The chosen counterparts are those of the chosen elements. -/
lemma forall₂_filter_fst (h : List.Forall₂ R as bs) (p : α → Bool) :
    List.Forall₂ R (as.filter p) (((as.zip bs).filter fun x => p x.1).map Prod.snd) := by
  obtain ⟨hlength, hR⟩ := List.forall₂_iff_zip.mp h
  rw [← map_fst_filter_zip hlength, List.forall₂_map_left_iff, List.forall₂_map_right_iff,
    List.forall₂_same]
  exact fun x hx => hR (List.mem_filter.mp hx).1

/-- What is made of the chosen counterparts is what is chosen of all that is made. -/
lemma zip_filter_fst (h : as.length = bs.length) (p : α → Bool) (g : β → γ) :
    (as.filter p).zip ((((as.zip bs).filter fun x => p x.1).map Prod.snd).map g) =
      (as.zip (bs.map g)).filter fun x => p x.1 := by
  rw [← map_fst_filter_zip h, List.map_map, List.zip_map', List.zip_map_right, List.filter_map]
  rfl

end Pairs

/-! ### Headers for a subset -/

/-- If a header can be made for some dialects, then one can be made for any of them. Each of them
keeps its section as it was, and if there is one at all then the constants for images and the
blocks' constants and structs are those that were declared before, whichever dialect is the first
one now. -/
theorem Header.make?_of_subset {f : ShaderFile} {cs : Compilations} {o : Options} {h : Header}
    (hmake : make? f cs o = .ok h) {s : DialectSet}
    (hs : ∀ d ∈ s.toList, d ∈ o.dialects.toList) :
    ∃ h', make? f cs { o with dialects := s } = .ok h' ∧
      h.sections.length = o.dialects.toList.length ∧ h'.sections.length = s.toList.length ∧
      s.toList.zip h'.sections =
        (o.dialects.toList.zip h.sections).filter (fun x => s.contains x.1) ∧
      (s.toList ≠ [] → ∃ a ∈ h.opening, ∃ b ∈ h'.opening,
        a.declarations.SameResources b.declarations) := by
  obtain ⟨es, hmade⟩ := exists_madeFrom hmake
  have hlength := hmade.checked.length_eq
  have hsubset := DialectSet.toList_eq_filter hs
  let es' := ((o.dialects.toList.zip es).filter fun x => s.contains x.1).map Prod.snd
  -- the editions that are left over are editions of the larger header
  have hmem : ∀ e ∈ es', e ∈ es := by
    intro e he
    obtain ⟨⟨d, e⟩, hx, rfl⟩ := List.mem_map.mp he
    exact (List.of_mem_zip (List.mem_filter.mp hx).1).2
  have hchecked : List.Forall₂ (fun d e => Edition.check? f d cs = .ok e) s.toList es' :=
    hsubset ▸ forall₂_filter_fst hmade.checked s.contains
  obtain ⟨h', hmake', hmade'⟩ := exists_make?_of_profile_eq (o := { o with dialects := s }) hchecked
    fun e he e' he' => hmade.profile_eq (hmem e he) (hmem e' he')
  refine ⟨h', hmake', ?_, ?_, ?_, ?_⟩
  · rw [hmade.sections, List.length_map, hlength]
  · rw [hmade'.sections, List.length_map, hchecked.length_eq]
  · rw [hmade.sections, hmade'.sections, hsubset]
    exact zip_filter_fst hlength s.contains _
  · -- the first edition may be another one now, but all have one profile
    intro hne
    have hne' : es' ≠ [] := fun hnil => hne (List.forall₂_nil_right_iff.mp (hnil ▸ hchecked))
    obtain ⟨e, he⟩ := List.exists_mem_of_ne_nil _ hne'
    obtain ⟨first, hfirst, -, a, ha, hdeclarations, -⟩ :=
      hmade.exists_first (List.ne_nil_of_mem (hmem e he))
    obtain ⟨first', hfirst', -, b, hb, hdeclarations', -⟩ := hmade'.exists_first hne'
    exact ⟨a, ha, b, hb, Declarations.sameResources_of_profile_eq hdeclarations hdeclarations'
      (hmade.profile_eq hfirst (hmem _ hfirst'))⟩

namespace Sample

/-- The small header without its first dialect. -/
theorem make?_of_subset_of_small_header :
    ∃ h h', Header.make? file compilations options = .ok h ∧
      Header.make? file compilations { options with dialects := .ofList [.metalMacos, .hlsl5] } =
        .ok h' ∧
      [Dialect.hlsl5, .metalMacos].zip h'.sections =
        ([Dialect.glsl330, .hlsl5, .metalMacos].zip h.sections).filter (fun x => x.1 ≠ .glsl330) ∧
      ∃ a ∈ h.opening, ∃ b ∈ h'.opening, a.declarations.SameResources b.declarations := by
  obtain ⟨h, hmake⟩ := exists_header
  obtain ⟨h', hmake', -, -, hsections, hopening⟩ :=
    Header.make?_of_subset hmake (s := .ofList [.metalMacos, .hlsl5]) (by decide)
  refine ⟨h, h', hmake, hmake', hsections.trans ?_, hopening (by decide)⟩
  have hleft : ∀ d ∈ options.dialects.toList,
      (DialectSet.ofList [.metalMacos, .hlsl5]).contains d = decide (d ≠ .glsl330) := by decide
  exact List.filter_congr fun x hx => hleft x.1 (List.of_mem_zip hx).1

end Sample

end ShaderHeader
