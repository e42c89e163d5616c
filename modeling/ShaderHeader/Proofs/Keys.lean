import Mathlib.Data.List.Nodup
import Mathlib.Data.List.Perm.Basic

/-!
# Lists with keys

What a list holds for a key, if no key occurs twice in it.
-/

namespace ShaderHeader

namespace Keys

variable {α κ : Type} [DecidableEq κ] {key : α → κ} {as : List α} {a b : α}

/-- What has a key of its own is the only one with this key. -/
lemma filter_eq_singleton (h : (as.map key).Nodup) (ha : a ∈ as) :
    as.filter (fun b => key b = key a) = [a] := by
  induction as with
  | nil => cases ha
  | cons b as ih =>
    obtain ⟨hb, has⟩ := List.nodup_cons.mp h
    rcases List.mem_cons.mp ha with rfl | ha
    · have hrest : as.filter (fun b => key b = key a) = [] := by
        refine List.filter_eq_nil_iff.mpr fun c hc heq => hb ?_
        rw [decide_eq_true_eq] at heq
        exact heq ▸ List.mem_map_of_mem hc
      simp [hrest]
    · have hne : key b ≠ key a := fun heq => hb (heq ▸ List.mem_map_of_mem ha)
      simp [hne, ih has ha]

/-- What has a key of its own is found by it. -/
lemma find?_eq_some (h : (as.map key).Nodup) (ha : a ∈ as) :
    as.find? (fun b => key b = key a) = some a := by
  rw [← List.head?_filter, filter_eq_singleton h ha, List.head?_cons]

/-- Nothing has a key for which nothing is found. -/
lemma notMem_map_of_find? {k : κ} (h : as.find? (fun b => key b = k) = none) :
    k ∉ as.map key := by
  rintro hk
  obtain ⟨b, hb, rfl⟩ := List.mem_map.mp hk
  simpa using List.find?_eq_none.mp h b hb

/-- What is found by a key does not depend on the order if no key occurs twice. -/
lemma find?_eq_of_perm {bs : List α} (h : as.Perm bs) (hnodup : (as.map key).Nodup) (k : κ) :
    as.find? (fun b => key b = k) = bs.find? (fun b => key b = k) := by
  cases hfind : as.find? fun b => key b = k with
  | none =>
    have hk : k ∉ as.map key := notMem_map_of_find? hfind
    refine (List.find?_eq_none.mpr fun b hb heq => hk ?_).symm
    rw [decide_eq_true_eq] at heq
    exact heq ▸ List.mem_map_of_mem (h.mem_iff.mpr hb)
  | some a =>
    obtain rfl : key a = k := by simpa using List.find?_some hfind
    have ha : a ∈ bs := h.mem_iff.mp (List.mem_of_find?_eq_some hfind)
    exact (find?_eq_some ((h.map key).nodup_iff.mp hnodup) ha).symm

omit [DecidableEq κ] in
/-- Steps that are interchangeable for different keys are taken in any order if no key occurs
twice. -/
lemma foldl_eq_of_perm {σ : Type} {step : σ → α → σ} {bs : List α} (h : as.Perm bs)
    (hnodup : (as.map key).Nodup)
    (hcomm : ∀ t a b, key a ≠ key b → step (step t a) b = step (step t b) a) (t : σ) :
    as.foldl step t = bs.foldl step t := by
  refine h.foldl_eq' (fun a ha b hb t => ?_) t
  by_cases hkey : key a = key b
  · obtain rfl := List.inj_on_of_nodup_map hnodup ha hb hkey
    rfl
  · exact hcomm t a b hkey

/-! ### The first and the last one with a key -/

/-- No element in front of it has the key of this one. -/
def IsFirstWith (key : α → κ) (k : κ) (as : List α) (a : α) : Prop :=
  key a = k ∧ ∃ before after, as = before ++ a :: after ∧ ∀ b ∈ before, key b ≠ k

/-- No element behind it has the key of this one. -/
def IsLastWith (key : α → κ) (k : κ) (as : List α) (a : α) : Prop :=
  key a = k ∧ ∃ before after, as = before ++ a :: after ∧ ∀ b ∈ after, key b ≠ k

variable {k : κ}

/-- What is found by a key is the first element with it. -/
lemma find?_eq_some_iff :
    as.find? (fun b => key b = k) = some a ↔ IsFirstWith key k as a := by
  rw [List.find?_eq_some_iff_append, IsFirstWith, decide_eq_true_eq]
  simp only [Bool.not_eq_true', decide_eq_false_iff_not, ne_eq]

lemma find?_eq_none_iff :
    as.find? (fun b => key b = k) = none ↔ ∀ b ∈ as, key b ≠ k := by
  simp only [List.find?_eq_none, decide_eq_true_eq, ne_eq]

omit [DecidableEq κ] in
/-- An element with the key is the last one as soon as it is added. -/
lemma isLastWith_concat (as : List α) (a : α) : IsLastWith key (key a) (as ++ [a]) a :=
  ⟨rfl, as, [], rfl, by simp⟩

omit [DecidableEq κ] in
/-- It stays the last one when an element with another key is added. -/
lemma IsLastWith.concat (h : IsLastWith key k as a) (hb : key b ≠ k) :
    IsLastWith key k (as ++ [b]) a := by
  obtain ⟨ha, before, after, rfl, hafter⟩ := h
  refine ⟨ha, before, after ++ [b], by simp, ?_⟩
  intro c hc
  rcases List.mem_append.mp hc with hc | hc
  · exact hafter c hc
  · rwa [List.mem_singleton.mp hc]

end Keys

end ShaderHeader
