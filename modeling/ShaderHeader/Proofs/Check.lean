import Mathlib.Data.List.Forall2
import Mathlib.Tactic.Lemma

/-!
# Successful checks

A check is a computation in `Except` that may fail. These lemmas say of each way in which checks are
put together when the whole of it succeeds: exactly if every part does.
-/

namespace ShaderHeader

namespace Check

variable {ε ε' α β σ : Type}

/-- Two steps succeed if the first one does and the second one does with its result. -/
lemma bind_eq_ok_iff {x : Except ε α} {g : α → Except ε β} {b : β} :
    (x >>= g) = .ok b ↔ ∃ a, x = .ok a ∧ g a = .ok b := by
  cases x with
  | error e => simp [bind, Except.bind]
  | ok a    => simp [bind, Except.bind]

/-- Two steps fail if one of them does. -/
lemma bind_eq_error_iff {x : Except ε α} {g : α → Except ε β} {e : ε} :
    (x >>= g) = .error e ↔ x = .error e ∨ ∃ a, x = .ok a ∧ g a = .error e := by
  cases x with
  | error e => simp [bind, Except.bind]
  | ok a    => simp [bind, Except.bind]

@[simp] lemma pure_eq_ok_iff {a b : α} : (pure a : Except ε α) = .ok b ↔ a = b := by
  simp [pure, Except.pure]

/-- Reporting an error in another form does not make it go away. -/
lemma mapError_eq_ok_iff {x : Except ε α} {g : ε → ε'} {a : α} :
    x.mapError g = .ok a ↔ x = .ok a := by
  cases x <;> simp [Except.mapError]

lemma mapError_eq_error_iff {x : Except ε α} {g : ε → ε'} {e' : ε'} :
    x.mapError g = .error e' ↔ ∃ e, x = .error e ∧ g e = e' := by
  cases x <;> simp [Except.mapError]

/-- Computing on from a result does not change whether there is one. -/
lemma map_eq_ok_iff {x : Except ε α} {g : α → β} {b : β} :
    x.map g = .ok b ↔ ∃ a, x = .ok a ∧ g a = b := by
  cases x <;> simp [Except.map]

lemma map_eq_error_iff {x : Except ε α} {g : α → β} {e : ε} :
    x.map g = .error e ↔ x = .error e := by
  cases x <;> simp [Except.map]

/-- What is computed from a result shows that there is one. -/
lemma exists_of_map_toOption {x : Except ε α} {g : α → β} {b : β}
    (h : x.toOption.map g = some b) : ∃ a, x = .ok a ∧ g a = b := by
  cases x with
  | error e => cases h
  | ok a    => exact ⟨a, rfl, Option.some.inj h⟩

/-- A check of a list succeeds if it succeeds for every element. -/
lemma forM_eq_ok_iff {g : α → Except ε Unit} {as : List α} {u : Unit} :
    as.forM g = .ok u ↔ ∀ a ∈ as, g a = .ok () := by
  induction as with
  | nil => simp [pure, Except.pure]
  | cons a as ih =>
    rw [List.forM_eq_forM, List.forM_cons, bind_eq_ok_iff]
    constructor
    · rintro ⟨_, ha, has⟩
      exact List.forall_mem_cons.mpr ⟨ha, ih.mp has⟩
    · intro h
      obtain ⟨ha, has⟩ := List.forall_mem_cons.mp h
      exact ⟨(), ha, ih.mpr has⟩

/-- What is related to some list element by element is related to one of its elements. -/
lemma exists_mem_of_forall₂ {R : α → β → Prop} {as : List α} {bs : List β}
    (h : List.Forall₂ R as bs) {b : β} (hb : b ∈ bs) : ∃ a ∈ as, R a b := by
  induction h with
  | nil => cases hb
  | cons hab _ ih =>
    rcases List.mem_cons.mp hb with rfl | hb
    · exact ⟨_, List.mem_cons_self, hab⟩
    · obtain ⟨a, ha, hR⟩ := ih hb
      exact ⟨a, List.mem_cons_of_mem _ ha, hR⟩

/-- A list is related to some list if each of its elements is related to something. -/
lemma exists_forall₂_iff {R : α → β → Prop} {as : List α} :
    (∃ bs, List.Forall₂ R as bs) ↔ ∀ a ∈ as, ∃ b, R a b := by
  constructor
  · rintro ⟨bs, h⟩ a ha
    obtain ⟨b, -, hb⟩ := exists_mem_of_forall₂ h.flip ha
    exact ⟨b, hb⟩
  · intro h
    induction as with
    | nil => exact ⟨[], .nil⟩
    | cons a as ih =>
      obtain ⟨⟨b, hb⟩, has⟩ := List.forall_mem_cons.mp h
      obtain ⟨bs, hbs⟩ := ih has
      exact ⟨b :: bs, .cons hb hbs⟩

/-- What is computed from related elements in the same way is the same. -/
lemma map_eq_of_forall₂ {γ : Type} {R : α → β → Prop} {g : α → γ} {g' : β → γ} {as : List α}
    {bs : List β} (h : List.Forall₂ R as bs) (hg : ∀ a b, R a b → g a = g' b) :
    as.map g = bs.map g' := by
  rw [← List.forall₂_eq_eq_eq, List.forall₂_map_left_iff, List.forall₂_map_right_iff]
  exact h.imp hg

/-- What a list is mapped to comes from its elements. -/
lemma exists_mem_of_map_eq {g : α → β} {as : List α} {bs : List β} (h : as.map g = bs) {b : β}
    (hb : b ∈ bs) : ∃ a ∈ as, g a = b :=
  List.mem_map.mp (h ▸ hb)

/-- The results of a list of steps are those of its elements, one by one. -/
lemma mapM_eq_ok_iff {g : α → Except ε β} {as : List α} {bs : List β} :
    as.mapM g = .ok bs ↔ List.Forall₂ (fun a b => g a = .ok b) as bs := by
  induction as generalizing bs with
  | nil =>
    rw [List.mapM_nil, pure_eq_ok_iff, List.forall₂_nil_left_iff, eq_comm]
  | cons a as ih =>
    rw [List.mapM_cons, bind_eq_ok_iff, List.forall₂_cons_left_iff]
    constructor
    · rintro ⟨b, hb, h⟩
      obtain ⟨bs', hbs, h⟩ := bind_eq_ok_iff.mp h
      exact ⟨b, bs', hb, ih.mp hbs, (pure_eq_ok_iff.mp h).symm⟩
    · rintro ⟨b, bs', hb, hbs, rfl⟩
      exact ⟨b, hb, bind_eq_ok_iff.mpr ⟨bs', ih.mpr hbs, rfl⟩⟩

/-- The first element that is reached is the head of a list or, if that is passed, the first one of
the rest. -/
lemma exists_reached_cons_iff {passes reached : α → Prop} {x : α} {as : List α} :
    (∃ before a after, x :: as = before ++ a :: after ∧ (∀ y ∈ before, passes y) ∧ reached a) ↔
      reached x ∨ passes x ∧
        ∃ before a after, as = before ++ a :: after ∧ (∀ y ∈ before, passes y) ∧ reached a := by
  constructor
  · rintro ⟨before, a, after, has, hbefore, ha⟩
    rcases List.cons_eq_append_iff.mp has with ⟨rfl, hcons⟩ | ⟨before', rfl, rfl⟩
    · obtain ⟨rfl, -⟩ := List.cons.inj hcons
      exact .inl ha
    · obtain ⟨hx, hbefore'⟩ := List.forall_mem_cons.mp hbefore
      exact .inr ⟨hx, before', a, after, rfl, hbefore', ha⟩
  · rintro (hx | ⟨hx, before, a, after, rfl, hbefore, ha⟩)
    · exact ⟨[], x, as, rfl, by simp, hx⟩
    · exact ⟨x :: before, a, after, rfl, List.forall_mem_cons.mpr ⟨hx, hbefore⟩, ha⟩

/-- A list of steps fails with the first step that fails: those in front of it succeed, and those
behind it are not tried. -/
lemma mapM_eq_error_iff {g : α → Except ε β} {as : List α} {e : ε} :
    as.mapM g = .error e ↔
      ∃ before a after, as = before ++ a :: after ∧ (∀ a' ∈ before, ∃ b, g a' = .ok b) ∧
        g a = .error e := by
  induction as with
  | nil => simp [pure, Except.pure]
  | cons x as ih =>
    rw [List.mapM_cons, bind_eq_error_iff, exists_reached_cons_iff, ← ih]
    simp [bind_eq_error_iff, pure, Except.pure]

/-- A loop fails with the first step that fails, from the state that the steps before it lead to. -/
lemma foldlM_eq_error_iff {g : σ → α → Except ε σ} {as : List α} {t : σ} {e : ε} :
    as.foldlM g t = .error e ↔
      ∃ before a after t', as = before ++ a :: after ∧ before.foldlM g t = .ok t' ∧
        g t' a = .error e := by
  induction as generalizing t with
  | nil => simp [pure, Except.pure]
  | cons x as ih =>
    rw [List.foldlM_cons, bind_eq_error_iff]
    constructor
    · rintro (hx | ⟨t₁, hx, hrest⟩)
      · exact ⟨[], x, as, t, rfl, rfl, hx⟩
      · obtain ⟨before, a, after, t', rfl, hbefore, ha⟩ := ih.mp hrest
        refine ⟨x :: before, a, after, t', rfl, ?_, ha⟩
        rw [List.foldlM_cons]
        exact bind_eq_ok_iff.mpr ⟨t₁, hx, hbefore⟩
    · rintro ⟨before, a, after, t', has, hbefore, ha⟩
      rcases List.cons_eq_append_iff.mp has with ⟨rfl, hcons⟩ | ⟨before, rfl, rfl⟩
      · -- nothing is in front of the step that fails, so it is the first one
        obtain ⟨rfl, -⟩ := List.cons.inj hcons
        obtain rfl := pure_eq_ok_iff.mp hbefore
        exact .inl ha
      · rw [List.foldlM_cons] at hbefore
        obtain ⟨t₁, hx, hrest⟩ := bind_eq_ok_iff.mp hbefore
        exact .inr ⟨t₁, hx, ih.mpr ⟨before, a, after, t', rfl, hrest, ha⟩⟩

/-- A failure comes from one of the steps. -/
lemma exists_of_foldlM_eq_error {g : σ → α → Except ε σ} {as : List α} {t : σ} {e : ε}
    (h : as.foldlM g t = .error e) : ∃ a ∈ as, ∃ t, g t a = .error e := by
  obtain ⟨before, a, after, t', rfl, -, ha⟩ := foldlM_eq_error_iff.mp h
  exact ⟨a, by simp, t', ha⟩

/-- What every step of a loop keeps, as one more element is gone through, the loop keeps. -/
lemma keeps_of_foldlM_eq_ok {P : List α → σ → Prop} {g : σ → α → Except ε σ}
    (step : ∀ {before a t t'}, P before t → g t a = .ok t' → P (before ++ [a]) t')
    {before as : List α} {t t' : σ} (h : P before t) (hrun : as.foldlM g t = .ok t') :
    P (before ++ as) t' := by
  induction as generalizing before t with
  | nil =>
    obtain rfl := pure_eq_ok_iff.mp hrun
    rwa [List.append_nil]
  | cons a as ih =>
    rw [List.foldlM_cons] at hrun
    obtain ⟨t₁, ha, hrest⟩ := bind_eq_ok_iff.mp hrun
    have hall := ih (step h ha) hrest
    rwa [List.append_assoc] at hall

/-- A loop over the image of a list runs as the loop over the list does, in other states. -/
lemma foldlM_map_eq_map {τ : Type} {g : τ → β → Except ε τ} {g' : σ → α → Except ε σ}
    (make : α → β) (state : σ → τ)
    (step : ∀ t a, g (state t) (make a) = (g' t a).map state) (as : List α) (t : σ) :
    (as.map make).foldlM g (state t) = (as.foldlM g' t).map state := by
  induction as generalizing t with
  | nil => rfl
  | cons a as ih =>
    rw [List.map_cons, List.foldlM_cons, List.foldlM_cons, step]
    cases g' t a with
    | error e => rfl
    | ok t'   => exact ih t'

/-- Reporting the error of each step in another form amounts to doing so for the loop. -/
lemma foldlM_mapError (g : σ → α → Except ε σ) (k : ε → ε') (as : List α) (t : σ) :
    as.foldlM (fun t a => (g t a).mapError k) t = (as.foldlM g t).mapError k := by
  induction as generalizing t with
  | nil => rfl
  | cons a as ih =>
    rw [List.foldlM_cons, List.foldlM_cons]
    cases g t a with
    | error e => rfl
    | ok t'   => exact ih t'

end Check

end ShaderHeader
