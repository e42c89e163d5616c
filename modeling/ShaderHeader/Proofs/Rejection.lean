import ShaderHeader.Proofs.SharedSlots

/-!
# Rejected dialects

A header is refused for the first dialect, in canonical order, that is rejected: it has no edition,
or its edition does not agree with that of the first dialect. Nothing else can go wrong, as there
is a struct for every block of an edition that has passed its checks.
-/

namespace ShaderHeader

open Check

variable {f : ShaderFile} {cs : Compilations} {o : Options} {d : Dialect} {e : Edition}

/-! ### Declarations of an edition -/

namespace Edition

/-- A block that holds a slot belongs to a source, so its struct has been tried before. -/
lemma exists_struct_of_mem_holders (h : Edition.check? f d cs = .ok e) {b : Block}
    (hb : b ∈ e.bindings.blocks.holders) : ∃ s, HostStruct.ofBlock? f.types b = .ok s := by
  obtain ⟨-, -, -, hsources, -, -, hbindings⟩ := check?_eq_ok_iff.mp h
  obtain ⟨source, hsource, hb⟩ := Bindings.exists_source_of_mem_blocks hbindings hb
  have hinterface := checkSource_eq_ok_iff.mp (hsources source hsource)
  exact (checkInterface_eq_ok_iff.mp hinterface).2.2 b hb

/-- The declarations of an edition can be written. -/
lemma exists_declarations (h : Edition.check? f d cs = .ok e) :
    ∃ ds, Declarations.ofEdition? f e = .ok ds := by
  obtain ⟨ss, hstructs⟩ :=
    exists_forall₂_iff.mpr fun b hb => exists_struct_of_mem_holders h hb
  exact ⟨⟨_, _, _, ss⟩, Declarations.ofEdition?_eq_ok_iff.mpr ⟨rfl, rfl, rfl, hstructs⟩⟩

lemma exists_opening (h : Edition.check? f d cs = .ok e) :
    ∃ s, Opening.ofEdition? f o e = .ok s := by
  obtain ⟨ds, hds⟩ := exists_declarations h
  exact ⟨⟨_, ds, _⟩, Opening.ofEdition?_eq_ok_iff.mpr ⟨rfl, hds, rfl⟩⟩

end Edition

/-! ### Dialects after the first one -/

namespace Header

/-- The edition for a dialect, which has to agree with the first one. -/
def follow? (f : ShaderFile) (cs : Compilations) (first : Edition) (d : Dialect) :
    Except Failure Edition := do
  let e ← Edition.check? f d cs
  first.checkAgreement f e
  return e

lemma followers?_eq_mapM (first : Edition) (ds : List Dialect) :
    followers? f cs first ds = ds.mapM (follow? f cs first) := by
  induction ds with
  | nil => rfl
  | cons d ds ih => simp [followers?, follow?, ih]

lemma follow?_eq_ok_iff {first : Edition} :
    follow? f cs first d = .ok e ↔
      Edition.check? f d cs = .ok e ∧ first.checkAgreement f e = .ok () := by
  simp only [follow?, bind_eq_ok_iff, pure_eq_ok_iff]
  constructor
  · rintro ⟨e', hcheck, _, hagree, rfl⟩
    exact ⟨hcheck, hagree⟩
  · rintro ⟨hcheck, hagree⟩
    exact ⟨e, hcheck, (), hagree, rfl⟩

lemma follow?_eq_error_iff {first : Edition} {failure : Failure} :
    follow? f cs first d = .error failure ↔
      Edition.check? f d cs = .error failure ∨
        ∃ e, Edition.check? f d cs = .ok e ∧ first.checkAgreement f e = .error failure := by
  simp [follow?, bind_eq_error_iff, pure, Except.pure]

/-! ### The first dialect that is rejected -/

/-- A dialect is rejected: it has no edition, or it comes after the first dialect and the two
editions do not agree. -/
def Rejects (f : ShaderFile) (cs : Compilations) (first d : Dialect) (failure : Failure) : Prop :=
  Edition.check? f d cs = .error failure ∨
    d ≠ first ∧ ∃ a b, Edition.check? f first cs = .ok a ∧ Edition.check? f d cs = .ok b ∧
      a.checkAgreement f b = .error failure

variable {first : Dialect} {failure : Failure}

/-- The first dialect is not compared with itself. -/
lemma rejects_self_iff : Rejects f cs first first failure ↔
    Edition.check? f first cs = .error failure := by
  simp [Rejects]

/-- If the first dialect has an edition, then every other one is rejected as it is followed. -/
lemma rejects_iff_follow? {a : Edition} (hfirst : Edition.check? f first cs = .ok a)
    (hne : d ≠ first) :
    Rejects f cs first d failure ↔ follow? f cs a d = .error failure := by
  simp [Rejects, follow?_eq_error_iff, hne, hfirst]

lemma not_rejects_iff_follow? {a : Edition} (hfirst : Edition.check? f first cs = .ok a)
    (hne : d ≠ first) :
    (∀ failure, ¬ Rejects f cs first d failure) ↔ ∃ b, follow? f cs a d = .ok b := by
  simp only [rejects_iff_follow? hfirst hne]
  cases follow? f cs a d <;> simp

/-- No dialect is treated twice. -/
lemma nodup_toList (s : DialectSet) : s.toList.Nodup :=
  List.Nodup.filter _ (by decide)

/-- A header fails for the first dialect that is rejected. -/
lemma make?_eq_error_iff_of_cons {ds : List Dialect} (ho : o.dialects.toList = first :: ds) :
    make? f cs o = .error failure ↔
      ∃ before d after, first :: ds = before ++ d :: after ∧
        (∀ d' ∈ before, ∀ e, ¬ Rejects f cs first d' e) ∧ Rejects f cs first d failure := by
  rw [exists_reached_cons_iff]
  cases hfirst : Edition.check? f first cs with
  | error e =>
    have hmake : make? f cs o = .error e := by
      simp only [make?, ho, hfirst]
      rfl
    simp [hmake, rejects_self_iff, hfirst]
  | ok a =>
    -- it is not, and declarations never fail, so one of the others is rejected
    obtain ⟨opening, hopening⟩ := Edition.exists_opening (o := o) hfirst
    have hmake : make? f cs o = .error failure ↔ ds.mapM (follow? f cs a) = .error failure := by
      simp only [make?, ho, hfirst, followers?_eq_mapM, bind_eq_error_iff]
      simp [hopening, pure, Except.pure]
    have hnodup : (first :: ds).Nodup := ho ▸ nodup_toList o.dialects
    have hne : ∀ d ∈ ds, d ≠ first := fun d hd heq => (List.nodup_cons.mp hnodup).1 (heq ▸ hd)
    -- no dialect is rejected as the first one and as a follower
    have hfollow : ∀ before d after, ds = before ++ d :: after →
        ((∀ d' ∈ before, ∃ b, follow? f cs a d' = .ok b) ∧ follow? f cs a d = .error failure ↔
          (∀ d' ∈ before, ∀ e, ¬ Rejects f cs first d' e) ∧ Rejects f cs first d failure) := by
      rintro before d after rfl
      refine and_congr (forall₂_congr fun d' hd' => ?_) ?_
      · exact (not_rejects_iff_follow? hfirst (hne d' (by simp [hd']))).symm
      · exact (rejects_iff_follow? hfirst (hne d (by simp))).symm
    rw [hmake, mapM_eq_error_iff]
    simp only [rejects_self_iff, hfirst, reduceCtorEq, not_false_eq_true, implies_true, true_and,
      false_or]
    exact exists₃_congr fun before d after => and_congr_right (hfollow before d after)

/-- A header that has been made has rejected no dialect. -/
lemma not_rejects_of_make? {h : Header} (hmake : make? f cs o = .ok h)
    (hfirst : first ∈ o.dialects.toList.head?) (hd : d ∈ o.dialects.toList) :
    ¬ Rejects f cs first d failure := by
  obtain ⟨ds, ho⟩ := List.head?_eq_some_iff.mp hfirst
  obtain ⟨a, -, others, hcheck, -, hothers, -⟩ := (make?_eq_ok_iff_of_cons ho).mp hmake
  by_cases heq : d = first
  · rw [heq, rejects_self_iff, hcheck]
    simp
  · have hmem : d ∈ ds := (List.mem_cons.mp (ho ▸ hd)).resolve_left heq
    obtain ⟨b, -, hb⟩ := exists_mem_of_forall₂ hothers.flip hmem
    exact (not_rejects_iff_follow? hcheck heq).mpr ⟨b, follow?_eq_ok_iff.mpr hb⟩ failure

/-- A header fails exactly if some dialect is rejected, and it fails with what the first such
dialect is rejected for: with the failure of its own edition, and otherwise with that of the
comparison with the first dialect. The declarations never fail, so no failure is theirs. -/
theorem fails_for_first_rejected (f : ShaderFile) (cs : Compilations) (o : Options) :
    ((∃ failure, make? f cs o = .error failure) ↔
      ∃ first ∈ o.dialects.toList.head?, ∃ d ∈ o.dialects.toList, ∃ failure,
        Rejects f cs first d failure) ∧
    (∀ failure, make? f cs o = .error failure ↔
      ∃ first ∈ o.dialects.toList.head?, ∃ before d after,
        o.dialects.toList = before ++ d :: after ∧
          (∀ d' ∈ before, ∀ e, ¬ Rejects f cs first d' e) ∧ Rejects f cs first d failure) ∧
    ∀ d e, Edition.check? f d cs = .ok e → ∃ ds, Declarations.ofEdition? f e = .ok ds := by
  have hfails : ∀ failure, make? f cs o = .error failure ↔
      ∃ first ∈ o.dialects.toList.head?, ∃ before d after,
        o.dialects.toList = before ++ d :: after ∧
          (∀ d' ∈ before, ∀ e, ¬ Rejects f cs first d' e) ∧ Rejects f cs first d failure := by
    intro failure
    cases ho : o.dialects.toList with
    | nil          => simp [make?, ho]
    | cons first _ => simp [make?_eq_error_iff_of_cons ho]
  refine ⟨⟨?_, ?_⟩, hfails, fun d e hcheck => Edition.exists_declarations hcheck⟩
  · rintro ⟨failure, hmake⟩
    obtain ⟨first, hfirst, before, d, after, hds, -, hd⟩ := (hfails failure).mp hmake
    exact ⟨first, hfirst, d, hds ▸ List.mem_append_right before List.mem_cons_self, failure, hd⟩
  · rintro ⟨first, hfirst, d, hd, failure, hrejects⟩
    cases hmake : make? f cs o with
    | error e => exact ⟨e, rfl⟩
    | ok h    => exact absurd hrejects (not_rejects_of_make? hmake hfirst hd)

end Header

/-! ### A file that is compiled in two ways -/

namespace Sample

/-- The second dialect has another image in the second program, and the third one has not been
compiled. -/
def differingPair : Compilations :=
  .ofList [(.glsl330, pair (textured "tex_a") (textured "tex_b")),
    (.hlsl5, pair (textured "tex_a") (textured "tex_c"))]

/-- A header for all three dialects, in any order. -/
def differingOptions : Options :=
  { output := "quad.h", dialects := .ofList [.metalMacos, .hlsl5, .glsl330] }

/-- The header fails for the second dialect, although the third one is rejected as well. -/
theorem fails_for_first_rejected_of_differingPair :
    Header.make? pairFile differingPair differingOptions =
      .error ⟨"quad.glsl", 31, .differingInterface .fragment "b" .glsl330 .hlsl5⟩ := by
  obtain ⟨a, ha, hdiffering⟩ : ∃ a, Edition.check? pairFile .glsl330 differingPair = .ok a ∧
      (Edition.check? pairFile .hlsl5 differingPair).toOption.map (a.checkAgreement pairFile) =
        some (.error ⟨"quad.glsl", 31, .differingInterface .fragment "b" .glsl330 .hlsl5⟩) :=
    exists_of_map_toOption (by decide +kernel)
  obtain ⟨b, hb, hdiffering⟩ := exists_of_map_toOption hdiffering
  have hfirst : ∀ d ∈ [Dialect.glsl330], ∀ e,
      ¬ Header.Rejects pairFile differingPair .glsl330 d e := by
    simp [Header.rejects_self_iff, ha]
  obtain ⟨-, hfails, -⟩ :=
    Header.fails_for_first_rejected pairFile differingPair differingOptions
  exact (hfails _).mpr ⟨.glsl330, by decide, [.glsl330], .hlsl5, [.metalMacos], by decide, hfirst,
    .inr ⟨by decide, a, b, ha, hb, hdiffering⟩⟩

end Sample

end ShaderHeader
