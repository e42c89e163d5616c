import Mathlib.Data.List.Perm.Basic
import ShaderHeader.Proofs.Rejection
import ShaderHeader.Proofs.SharedStructs

/-!
# Declarations of editions that agree

Any editions with one profile make a header, and it does not matter much which of them is the first:
the others declare the same constants for images and the same structs, though perhaps in another
order.
-/

namespace ShaderHeader

open Check

variable {f : ShaderFile} {cs : Compilations} {o : Options} {h : Header} {es : List Edition}

/-! ### The same declarations -/

/-- Ordering by slot does not lose anything. -/
lemma perm_of_sortBySlot_eq {α : Type} {slot : α → Nat} {as bs : List α}
    (h : sortBySlot slot as = sortBySlot slot bs) : as.Perm bs :=
  (perm_sortBySlot slot as).symm.trans (h ▸ perm_sortBySlot slot bs)

namespace Declarations

/-- The constants for images and the blocks' constants and structs are the same, in any order. -/
structure SameResources (a b : Declarations) : Prop where
  qualifier : a.qualifier = b.qualifier
  images : a.images.Perm b.images
  structs : a.structs.Perm b.structs

/-- Some structs are those of blocks with the same profiles, in another order. -/
lemma structs_perm {types : NameTable String} {bs bs' : List Block} {ss ss' : List HostStruct}
    (h : (bs.map Block.profile).Perm (bs'.map Block.profile))
    (hs : List.Forall₂ (fun b s => HostStruct.ofBlock? types b = .ok s) bs ss)
    (hs' : List.Forall₂ (fun b s => HostStruct.ofBlock? types b = .ok s) bs' ss') :
    ss.Perm ss' := by
  let IsStruct (p : BlockProfile) (s : HostStruct) : Prop :=
    ∃ b : Block, b.profile = p ∧ HostStruct.ofBlock? types b = .ok s
  have hunique : Relator.RightUnique IsStruct := by
    rintro _ s s' ⟨b, rfl, hb⟩ ⟨b', hprofile, hb'⟩
    exact Except.ok.inj (hb.symm.trans (HostStruct.ofBlock?_of_profile_eq hprofile hb'))
  have hstructs : ∀ {bs ss},
      List.Forall₂ (fun b s => HostStruct.ofBlock? types b = .ok s) bs ss →
        List.Forall₂ IsStruct (bs.map Block.profile) ss :=
    fun hs => List.forall₂_map_left_iff.mpr (hs.imp fun b _ hb => ⟨b, rfl, hb⟩)
  exact List.rel_perm_imp hunique (hstructs hs) (hstructs hs') h

/-- Editions with the same profile have the same holders of slots. -/
lemma sameResources_of_profile_eq {e e' : Edition} {a b : Declarations}
    (ha : ofEdition? f e = .ok a) (hb : ofEdition? f e' = .ok b) (h : e.profile = e'.profile) :
    a.SameResources b := by
  obtain ⟨hqualifier, -, himages, hstructs⟩ := ofEdition?_eq_ok_iff.mp ha
  obtain ⟨hqualifier', -, himages', hstructs'⟩ := ofEdition?_eq_ok_iff.mp hb
  have hholders : e.bindings.images.holders.Perm e'.bindings.images.holders :=
    perm_of_sortBySlot_eq (congrArg EditionProfile.images h)
  have hprofiles : (e.bindings.blocks.holders.map Block.profile).Perm
      (e'.bindings.blocks.holders.map Block.profile) :=
    perm_of_sortBySlot_eq (congrArg EditionProfile.blocks h)
  refine ⟨hqualifier.trans hqualifier'.symm, ?_, structs_perm hprofiles hstructs hstructs'⟩
  rw [himages, himages']
  exact hholders.map _

/-- The same structs have the same warnings. -/
lemma SameResources.warnings_perm {a b : Declarations} (h : a.SameResources b) :
    a.warnings.Perm b.warnings :=
  h.structs.flatMap_right _

end Declarations

/-! ### Headers from editions -/

namespace Header

/-- Editions for all dialects make a header if they have the same profile. -/
lemma exists_make?_of_profile_eq
    (hes : List.Forall₂ (fun d e => Edition.check? f d cs = .ok e) o.dialects.toList es)
    (hprofile : ∀ e ∈ es, ∀ e' ∈ es, e.profile = e'.profile) :
    ∃ h, make? f cs o = .ok h ∧ MadeFrom f cs o h es := by
  have hmakes : ∃ h, make? f cs o = .ok h := by
    cases ho : o.dialects.toList with
    | nil => exact ⟨_, (make?_eq_ok_iff_of_nil ho).mpr rfl⟩
    | cons d ds =>
      obtain ⟨first, others, hfirst, hothers, rfl⟩ := List.forall₂_cons_left_iff.mp (ho ▸ hes)
      obtain ⟨opening, hopening⟩ := Edition.exists_opening (o := o) hfirst
      -- editions of one profile agree with whichever of them is first
      have hagree : ∀ e ∈ others, first.checkAgreement f e = .ok () := by
        intro e he
        obtain ⟨d', -, hcheck⟩ := exists_mem_of_forall₂ hothers he
        exact (Edition.checkAgreement_eq_ok_iff (.of_check? hfirst) (.of_check? hcheck)).mpr
          (hprofile first List.mem_cons_self e (List.mem_cons_of_mem _ he))
      have hfollow := (List.forall₂_and_left _ _).mpr ⟨hagree, hothers.flip⟩
      exact ⟨_, (make?_eq_ok_iff_of_cons ho).mpr
        ⟨first, opening, others, hfirst, hopening, hfollow.flip.imp fun _ _ h => h.symm, rfl⟩⟩
  obtain ⟨h, hmake⟩ := hmakes
  obtain ⟨es', hmade⟩ := exists_madeFrom hmake
  have hunique : Relator.RightUnique fun d e => Edition.check? f d cs = .ok e :=
    fun _ _ _ he he' => Except.ok.inj (he.symm.trans he')
  obtain rfl := List.right_unique_forall₂' hunique hes hmade.checked
  exact ⟨h, hmake, hmade⟩

end Header

end ShaderHeader
