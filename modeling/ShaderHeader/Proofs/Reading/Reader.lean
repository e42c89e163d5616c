import ShaderHeader.Proofs.Reading.Definition

/-!
# Readers

A reader takes something from the front of a text and leaves the rest. It reads back what has been
written if it takes exactly that (`Takes`), whatever comes after it. Readers are put together as
texts are: one after the other, with a sentinel for nothing, or repeated up to an ending.
-/

namespace ShaderHeader

namespace Reading

/-- Takes a value from the front of some characters, or fails. -/
abbrev Reader := StateT (List Char) Option

variable {α β : Type} {r : Reader α} {x y : String} {a : α} {b : β}

/-- A reader takes a text as a value, whatever follows the text. -/
def Takes (r : Reader α) (x : String) (a : α) : Prop :=
  ∀ cs, r.run (x.toList ++ cs) = some (a, cs)

/-! ### Texts that are apart -/

/-- Two texts of which neither is the start of the other. -/
def Apart (x y : String) : Prop :=
  ¬ x.toList <+: y.toList ∧ ¬ y.toList <+: x.toList

instance (x y : String) : Decidable (Apart x y) :=
  inferInstanceAs (Decidable (_ ∧ _))

namespace Apart

/-- Texts that differ somewhere are apart. -/
lemma of_getElem? {i : Nat} {c d : Char} (hx : x.toList[i]? = some c) (hy : y.toList[i]? = some d)
    (h : c ≠ d) : Apart x y := by
  obtain ⟨hi, hx⟩ := List.getElem?_eq_some_iff.mp hx
  obtain ⟨hj, hy⟩ := List.getElem?_eq_some_iff.mp hy
  constructor
  · intro hstart
    exact h (hx.symm.trans ((hstart.getElem hi).trans hy))
  · intro hstart
    exact h (hx.symm.trans ((hstart.getElem hj).symm.trans hy))

/-- What follows the second text does not matter. -/
lemma append (h : Apart x y) (z : String) : Apart x (y ++ z) := by
  rw [Apart, String.toList_append]
  constructor
  · intro hx
    rcases List.prefix_or_prefix_of_prefix hx (List.prefix_append _ _) with hxy | hyx
    · exact h.1 hxy
    · exact h.2 hyx
  · intro hyz
    exact h.2 ((List.prefix_append _ _).trans hyz)

lemma dropPrefix?_eq_none (h : Apart x y) (cs : List Char) :
    (y.toList ++ cs).dropPrefix? x.toList = none := by
  cases hdrop : (y.toList ++ cs).dropPrefix? x.toList with
  | none => rfl
  | some rest =>
    obtain ⟨front, hcs, hfront⟩ := List.dropPrefix?_eq_some_iff.mp hdrop
    obtain rfl := eq_of_beq hfront
    have hx : x.toList <+: (y ++ String.ofList cs).toList := by
      rw [String.toList_append, String.toList_ofList]
      exact ⟨rest, hcs.symm⟩
    exact absurd hx (h.append _).1

/-- The second text is not empty, as the first one would start with it. -/
lemma length_pos (h : Apart x y) : 0 < y.toList.length := by
  apply List.length_pos_of_ne_nil
  intro hy
  exact h.2 (hy ▸ List.nil_prefix)

end Apart

lemma dropPrefix?_append (xs cs : List Char) : (xs ++ cs).dropPrefix? xs = some cs :=
  List.dropPrefix?_eq_some_iff.mpr ⟨xs, rfl, beq_self_eq_true xs⟩

/-! ### Readers -/

/-- Takes a fixed text. -/
def expect (x : String) : Reader Unit := fun cs =>
  (cs.dropPrefix? x.toList).map ((), ·)

/-- Takes all characters up to the next one of a kind, which is taken and left out. -/
def upTo (stop : Char) : Reader String := fun cs =>
  match cs.dropWhile (· ≠ stop) with
  | []        => none
  | _ :: rest => some (.ofList (cs.takeWhile (· ≠ stop)), rest)

/-- Takes a number and the character behind it. -/
def numberTo (stop : Char) : Reader Nat := do
  let digits ← upTo stop
  number? digits

/-- Takes a fixed text for nothing, and otherwise something. -/
def orNothing (sentinel : String) (item : Reader α) : Reader (Option α) := fun cs =>
  match cs.dropPrefix? sentinel.toList with
  | some rest => some (none, rest)
  | none      => (some <$> item).run cs

/-- Takes as many items as there are in front of an ending. Every item has some text. -/
def allBefore (ending : String) (item : Reader α) (cs : List Char) : Option (List α × List Char) :=
  match cs.dropPrefix? ending.toList with
  | some rest => some ([], rest)
  | none      =>
    match item.run cs with
    | none           => none
    | some (a, rest) =>
      if rest.length < cs.length then
        (allBefore ending item rest).map fun (as, rest) => (a :: as, rest)
      else none
termination_by cs.length

namespace Takes

/-- Two readers take two texts, one after the other. -/
lemma bind {next : α → Reader β} (hr : Takes r x a) (hnext : Takes (next a) y b) :
    Takes (r >>= next) (x ++ y) b := by
  intro cs
  rw [String.toList_append, List.append_assoc, StateT.run_bind, hr]
  exact hnext cs

lemma of_eq (h : Takes r x a) (hxy : x = y) : Takes r y a :=
  hxy ▸ h

lemma pure (a : α) : Takes (Pure.pure a) "" a := fun _ => rfl

/-- A value is computed from what has been taken. -/
lemma map (h : Takes r x a) (g : α → β) : Takes (g <$> r) x (g a) := by
  intro cs
  rw [StateT.run_map, h]
  rfl

/-- A value is read off what has been taken. -/
lemma lift {o : Option α} (h : o = some a) : Takes (liftM o) "" a := by
  subst h
  exact fun _ => rfl

lemma expect (x : String) : Takes (expect x) x () := by
  intro cs
  simp only [Reading.expect, StateT.run, dropPrefix?_append, Option.map_some]

lemma upTo {stop : Char} (h : stop ∉ x.toList) : Takes (upTo stop) (x ++ stop.toString) x := by
  have hx : ∀ c ∈ x.toList, decide (c ≠ stop) = true :=
    fun c hc => decide_eq_true fun heq => h (heq ▸ hc)
  intro cs
  have htext : (x ++ stop.toString).toList ++ cs = x.toList ++ stop :: cs := by simp
  simp only [Reading.upTo, StateT.run, htext, List.dropWhile_append_of_pos hx,
    List.takeWhile_append_of_pos hx]
  simp

lemma numberTo {stop : Char} (h : isWordChar stop = false) (n : Nat) :
    Takes (numberTo stop) (n.repr ++ stop.toString) n := by
  have hdigits := Takes.upTo ((isWord_repr n).notMem h)
  have hread : Takes (Reading.numberTo stop) (n.repr ++ stop.toString ++ "") n :=
    hdigits.bind (Takes.lift (number?_repr n))
  rwa [String.append_empty] at hread

lemma nothing (sentinel : String) (item : Reader α) :
    Takes (orNothing sentinel item) sentinel none := by
  intro cs
  simp only [orNothing, StateT.run, dropPrefix?_append]

lemma something {sentinel : String} (h : Takes r x a) (hx : Apart sentinel x) :
    Takes (orNothing sentinel r) x (some a) := by
  intro cs
  change (match (x.toList ++ cs).dropPrefix? sentinel.toList with
    | some rest => some (none, rest)
    | none      => (some <$> r).run (x.toList ++ cs)) = _
  rw [hx.dropPrefix?_eq_none]
  exact h.map some cs

/-- Items are taken one by one if none of them can be mistaken for the ending. -/
lemma allBefore {ending : String} {text : β → String} {value : β → α} {bs : List β}
    (h : ∀ b ∈ bs, Takes r (text b) (value b) ∧ Apart ending (text b)) :
    Takes (allBefore ending r) (String.join (bs.map text) ++ ending) (bs.map value) := by
  intro cs
  change Reading.allBefore ending r _ = _
  induction bs with
  | nil =>
    rw [Reading.allBefore]
    simp [dropPrefix?_append]
  | cons b bs ih =>
    obtain ⟨⟨hread, hapart⟩, hbs⟩ := List.forall_mem_cons.mp h
    have htext : (String.join ((b :: bs).map text) ++ ending).toList ++ cs =
        (text b).toList ++ ((String.join (bs.map text) ++ ending).toList ++ cs) := by simp
    have hshorter : ((String.join (bs.map text) ++ ending).toList ++ cs).length <
        ((text b).toList ++ ((String.join (bs.map text) ++ ending).toList ++ cs)).length := by
      have hpos := hapart.length_pos
      simp only [List.length_append]
      omega
    rw [htext, Reading.allBefore, hapart.dropPrefix?_eq_none]
    simp only [hread _, if_pos hshorter, ih hbs]
    rfl

end Takes

end Reading

end ShaderHeader
