/-!
# Tables ordered by name

A `NameTable` holds one value per name, in the order of the names (by code point). The order is part
of the type, so two tables with the same entries are the same table however they were filled.
-/

namespace ShaderHeader

variable {α : Type}

/-- Puts an entry at its place; an entry of the same name is replaced. -/
def insertEntry (name : String) (value : α) : List (String × α) → List (String × α)
  | [] => [(name, value)]
  | e :: es =>
    if name < e.1 then (name, value) :: e :: es
    else if name = e.1 then (name, value) :: es
    else e :: insertEntry name value es

theorem mem_insertEntry {name : String} {value : α} {e : String × α} {es : List (String × α)}
    (h : e ∈ insertEntry name value es) : e = (name, value) ∨ e ∈ es := by
  induction es with
  | nil => simpa [insertEntry] using h
  | cons e' es ih =>
    rw [insertEntry] at h
    split at h
    · simpa using h
    · split at h
      · rcases List.mem_cons.1 h with h | h
        · exact .inl h
        · exact .inr (List.mem_cons_of_mem _ h)
      · rcases List.mem_cons.1 h with h | h
        · exact .inr (h ▸ List.mem_cons_self)
        · exact (ih h).imp_right (List.mem_cons_of_mem _)

theorem pairwise_insertEntry (name : String) (value : α) {es : List (String × α)}
    (h : es.Pairwise fun a b => a.1 < b.1) :
    (insertEntry name value es).Pairwise fun a b => a.1 < b.1 := by
  induction es with
  | nil => simp [insertEntry]
  | cons e es ih =>
    obtain ⟨he, hes⟩ := List.pairwise_cons.1 h
    rw [insertEntry]
    split
    · -- the name comes first
      next hlt =>
      refine List.pairwise_cons.2 ⟨fun b hb => ?_, h⟩
      rcases List.mem_cons.1 hb with rfl | hb
      · exact hlt
      · exact String.lt_trans hlt (he b hb)
    · next hlt =>
      split
      · -- the name is there, and its entry is replaced
        next heq => exact List.pairwise_cons.2 ⟨fun b hb => heq ▸ he b hb, hes⟩
      · -- the name comes later
        next hne =>
        refine List.pairwise_cons.2 ⟨fun b hb => ?_, ih hes⟩
        rcases mem_insertEntry hb with rfl | hb
        · exact Std.lt_of_le_of_ne (String.not_lt.1 hlt) (Ne.symm hne)
        · exact he b hb

theorem find?_insertEntry (name other : String) (value : α) (es : List (String × α)) :
    (insertEntry name value es).find? (fun e => e.1 = other) =
      if name = other then some (name, value) else es.find? fun e => e.1 = other := by
  induction es with
  | nil => by_cases h : name = other <;> simp [insertEntry, h]
  | cons e es ih =>
    rw [insertEntry]
    split
    · by_cases h : name = other <;> simp [h]
    · split
      · -- the entry is replaced
        next h => by_cases ho : name = other <;> simp [← h, ho]
      · -- the entry is inserted further on
        next h =>
        rw [List.find?_cons, List.find?_cons, ih]
        by_cases he : e.1 = other
        · have ho : name ≠ other := fun ho => h (ho.trans he.symm)
          simp [he, ho]
        · simp [he]

/-- Values by name, in the order of the names. -/
structure NameTable (α : Type) where
  entries : List (String × α)
  sorted : entries.Pairwise fun a b => a.1 < b.1

namespace NameTable

def empty : NameTable α :=
  ⟨[], .nil⟩

/-- Enters a value; an earlier one of the same name is replaced. -/
def insert (t : NameTable α) (name : String) (value : α) : NameTable α :=
  ⟨insertEntry name value t.entries, pairwise_insertEntry name value t.sorted⟩

/-- The table of some entries; of two with the same name the later one counts. -/
def ofList (es : List (String × α)) : NameTable α :=
  es.foldl (fun t e => t.insert e.1 e.2) empty

/-- The value of a name. -/
def find? (t : NameTable α) (name : String) : Option α :=
  (t.entries.find? fun e => e.1 = name).map (·.2)

/-- The values, in the order of their names. -/
def values (t : NameTable α) : List α :=
  t.entries.map (·.2)

@[simp] theorem find?_empty (name : String) : (empty : NameTable α).find? name = none := rfl

@[simp] theorem find?_insert_self (t : NameTable α) (name : String) (value : α) :
    (t.insert name value).find? name = some value := by
  simp [find?, insert, find?_insertEntry]

theorem find?_insert_of_ne (t : NameTable α) {name other : String} (h : other ≠ name)
    (value : α) : (t.insert name value).find? other = t.find? other := by
  simp [find?, insert, find?_insertEntry, Ne.symm h]

end NameTable

end ShaderHeader
