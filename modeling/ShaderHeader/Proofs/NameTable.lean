import ShaderHeader.NameTable
import ShaderHeader.Proofs.Keys

/-!
# Tables ordered by name

A table is known from what it holds for each name. So values of different names can be entered in
any order.
-/

namespace ShaderHeader

namespace NameTable

variable {α : Type} {t u : NameTable α} {name : String} {value : α}

lemma nodup_names (t : NameTable α) : (t.entries.map Prod.fst).Nodup := by
  refine List.pairwise_map.mpr (t.sorted.imp fun hlt heq => ?_)
  exact String.lt_irrefl _ (heq ▸ hlt)

/-- Values that stand under their own names have different names. -/
lemma nodup_map_values {own : α → String} (h : ∀ x ∈ t.entries, own x.2 = x.1) :
    (t.values.map own).Nodup := by
  have hnames : t.values.map own = t.entries.map Prod.fst := by
    rw [values, List.map_map]
    exact List.map_congr_left h
  exact hnames ▸ t.nodup_names

lemma mem_entries_iff : (name, value) ∈ t.entries ↔ t.find? name = some value := by
  rw [find?, Option.map_eq_some_iff]
  constructor
  · intro h
    exact ⟨_, Keys.find?_eq_some t.nodup_names h, rfl⟩
  · rintro ⟨⟨other, v⟩, hfind, rfl⟩
    obtain rfl : other = name := by simpa using List.find?_some hfind
    exact List.mem_of_find?_eq_some hfind

lemma eq_of_find?_eq (h : ∀ name, t.find? name = u.find? name) : t = u := by
  have hperm : t.entries.Perm u.entries := by
    refine (List.perm_ext_iff_of_nodup t.nodup_names.of_map u.nodup_names.of_map).mpr ?_
    rintro ⟨name, value⟩
    rw [mem_entries_iff, mem_entries_iff, h]
  have hentries : t.entries = u.entries :=
    hperm.eq_of_pairwise (fun a b _ _ hlt hgt => absurd hgt (String.lt_asymm hlt)) t.sorted u.sorted
  obtain ⟨es, hes⟩ := t
  obtain ⟨es', hes'⟩ := u
  obtain rfl : es = es' := hentries
  rfl

lemma find?_insert (t : NameTable α) (name other : String) (value : α) :
    (t.insert name value).find? other = if other = name then some value else t.find? other := by
  split_ifs with h
  · rw [h, find?_insert_self]
  · exact t.find?_insert_of_ne h value

lemma insert_comm (t : NameTable α) {name other : String} (h : name ≠ other) (v w : α) :
    (t.insert name v).insert other w = (t.insert other w).insert name v := by
  refine eq_of_find?_eq fun x => ?_
  simp only [find?_insert]
  split_ifs with hother hname
  · exact absurd (hname.symm.trans hother) h
  all_goals rfl

/-- Entries of different names are entered in any order. -/
lemma foldl_insert_of_perm {es es' : List (String × α)} (h : es.Perm es')
    (hnodup : (es.map Prod.fst).Nodup) (t : NameTable α) :
    es.foldl (fun t e => t.insert e.1 e.2) t = es'.foldl (fun t e => t.insert e.1 e.2) t :=
  Keys.foldl_eq_of_perm h hnodup (fun t _ _ hname => t.insert_comm hname _ _) t

end NameTable

end ShaderHeader
