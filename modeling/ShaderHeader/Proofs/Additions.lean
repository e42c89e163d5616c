import ShaderHeader.Proofs.Keys
import ShaderHeader.Shader.Interface

/-!
# Interfaces put together

The interface of a stage is put together by adding inputs, outputs, blocks and images one by one, in
any order and as often as needed. An attribute takes the location of its slot from the one that was
there before, while blocks and images never give way. So a table shows the last attribute that was
added for each location, and a block or an image is found by its slot if it was added first.
-/

namespace ShaderHeader

open Keys

/-! ### Tables of attributes -/

namespace AttributeTable

variable {t : AttributeTable} {as : List Attribute}

/-- Every location has the last of some attributes with its slot. Where there is none the location
is as it is in an empty table. -/
def Shows (t : AttributeTable) (as : List Attribute) : Prop :=
  ∀ location, ∀ h : location < attributeCapacity,
    IsLastWith Attribute.slot (some location) as t[location] ∨
      t[location] = {} ∧ ∀ a ∈ as, a.slot ≠ some location

lemma shows_empty : empty.Shows [] := by
  intro location h
  exact .inr ⟨getElem_empty h, by simp⟩

/-- An attribute is shown at the location of its slot, and all others stay. -/
lemma Shows.place (ht : t.Shows as) (a : Attribute) : (t.place a).Shows (as ++ [a]) := by
  intro location h
  rw [getElem_place t a h]
  split_ifs with hslot
  · left
    rw [← hslot]
    exact isLastWith_concat as a
  · rcases ht location h with hlast | ⟨hunused, hnone⟩
    · left
      exact hlast.concat hslot
    · right
      refine ⟨hunused, ?_⟩
      intro b hb
      rcases List.mem_append.mp hb with hb | hb
      · exact hnone b hb
      · rwa [List.mem_singleton.mp hb]

/-- Some attributes that are placed one after the other are shown behind those in front of them. -/
lemma Shows.foldl_place (ht : t.Shows as) (bs : List Attribute) :
    (bs.foldl AttributeTable.place t).Shows (as ++ bs) := by
  induction bs generalizing t as with
  | nil => rwa [List.append_nil]
  | cons b bs ih =>
    have hstep := ih (ht.place b)
    rwa [List.append_assoc] at hstep

/-- An attribute is ignored if it has no slot or one that is no location. -/
lemma place_eq_self (t : AttributeTable) {a : Attribute}
    (h : ∀ slot ∈ a.slot, attributeCapacity ≤ slot) : t.place a = t := by
  apply Vector.ext
  intro location hlocation
  rw [getElem_place t a hlocation, if_neg]
  intro hslot
  have hle := h location hslot
  omega

/-- A used attribute has its location for a slot. -/
lemma Shows.slot_eq (ht : t.Shows as) {location slot : Nat} (h : location < attributeCapacity)
    (hslot : t[location].slot = some slot) : slot = location := by
  rcases ht location h with hlast | ⟨hunused, -⟩
  · exact Option.some.inj (hslot.symm.trans hlast.1)
  · rw [hunused] at hslot
    cases hslot

lemma Shows.mem_used_iff (ht : t.Shows as) {a : Attribute} :
    a ∈ t.used ↔ ∃ location, ∃ h : location < attributeCapacity,
      t[location] = a ∧ a.slot = some location := by
  rw [used, List.mem_filter, Vector.mem_toList_iff, Vector.mem_iff_getElem, Attribute.isUsed,
    Option.isSome_iff_exists]
  constructor
  · rintro ⟨⟨location, h, rfl⟩, slot, hslot⟩
    refine ⟨location, h, rfl, ?_⟩
    rw [hslot, ht.slot_eq h hslot]
  · rintro ⟨location, h, rfl, hslot⟩
    exact ⟨⟨location, h, rfl⟩, location, hslot⟩

/-- The used attributes are in the order of their slots. -/
lemma Shows.pairwise_used (ht : t.Shows as) :
    t.used.Pairwise fun a b => ∃ m n, a.slot = some m ∧ b.slot = some n ∧ m < n := by
  rw [used, List.pairwise_filter, List.pairwise_iff_getElem]
  intro m n hm hn hlt ha hb
  obtain ⟨slot, hslot⟩ := Option.isSome_iff_exists.mp ha
  obtain ⟨slot', hslot'⟩ := Option.isSome_iff_exists.mp hb
  rw [Vector.getElem_toList] at hslot hslot'
  rw [Vector.length_toList] at hm hn
  refine ⟨slot, slot', hslot, hslot', ?_⟩
  rw [ht.slot_eq hm hslot, ht.slot_eq hn hslot']
  exact hlt

end AttributeTable

/-! ### Additions -/

/-- What is added to an interface. -/
inductive Addition
  | input (a : Attribute)
  | output (a : Attribute)
  | block (b : Block)
  | image (m : Image)
  deriving DecidableEq

namespace Addition

def input? : Addition → Option Attribute
  | input a                      => some a
  | output _ | block _ | image _ => none

def output? : Addition → Option Attribute
  | output a                    => some a
  | input _ | block _ | image _ => none

def block? : Addition → Option Block
  | block b                      => some b
  | input _ | output _ | image _ => none

def image? : Addition → Option Image
  | image m                      => some m
  | input _ | output _ | block _ => none

end Addition

namespace Interface

/-- Adds something. -/
def add (i : Interface) : Addition → Interface
  | .input a  => i.addInput a
  | .output a => i.addOutput a
  | .block b  => i.addBlock b
  | .image m  => i.addImage m

/-- Each part of an interface only depends on what has been added to it. -/
lemma foldl_add (i : Interface) (xs : List Addition) :
    xs.foldl add i = { i with
      inputs := (xs.filterMap Addition.input?).foldl AttributeTable.place i.inputs
      outputs := (xs.filterMap Addition.output?).foldl AttributeTable.place i.outputs
      blocks := i.blocks ++ xs.filterMap Addition.block?
      images := i.images ++ xs.filterMap Addition.image? } := by
  induction xs generalizing i with
  | nil => simp
  | cons x xs ih =>
    rw [List.foldl_cons, ih]
    -- each kind of addition changes one part and leaves the others to the rest
    cases x with
    | input a =>
      simp [add, addInput, List.filterMap_cons, Addition.input?, Addition.output?,
        Addition.block?, Addition.image?]
    | output a =>
      simp [add, addOutput, List.filterMap_cons, Addition.input?, Addition.output?,
        Addition.block?, Addition.image?]
    | block b =>
      simp [add, addBlock, List.filterMap_cons, Addition.input?, Addition.output?,
        Addition.block?, Addition.image?]
    | image m =>
      simp [add, addImage, List.filterMap_cons, Addition.input?, Addition.output?,
        Addition.block?, Addition.image?]

/-- After any additions a location has the last attribute with this slot, or it is unused if there
was none, and an attribute that has no location is ignored. The used inputs are listed by slot. A
block or an image is found by its slot if no other one with this slot was added before. Whatever is
added next, only the part that it is for can change. -/
theorem shows_last_finds_first (stage : Stage) (entry : String) (xs : List Addition) (i : Interface)
    (h : xs.foldl add { stage, entry } = i) :
    (i.inputs.Shows (xs.filterMap Addition.input?) ∧
      i.outputs.Shows (xs.filterMap Addition.output?)) ∧
    (∀ a : Attribute, (∀ slot ∈ a.slot, attributeCapacity ≤ slot) →
      i.add (.input a) = i ∧ i.add (.output a) = i) ∧
    ((∀ a, a ∈ i.inputs.used ↔ ∃ location, ∃ h : location < attributeCapacity,
        i.inputs[location] = a ∧ a.slot = some location) ∧
      i.inputs.used.Pairwise fun a b => ∃ m n, a.slot = some m ∧ b.slot = some n ∧ m < n) ∧
    (∀ slot b, i.block? slot = some b ↔
      IsFirstWith Block.slot slot (xs.filterMap Addition.block?) b) ∧
    (∀ slot m, i.image? slot = some m ↔
      IsFirstWith Image.slot slot (xs.filterMap Addition.image?) m) ∧
    (∀ a, ∃ inputs, i.add (.input a) = { i with inputs }) ∧
    (∀ a, ∃ outputs, i.add (.output a) = { i with outputs }) ∧
    (∀ b, ∃ blocks, i.add (.block b) = { i with blocks }) ∧
    (∀ m, ∃ images, i.add (.image m) = { i with images }) := by
  subst h
  have hinputs : (xs.foldl add { stage, entry }).inputs.Shows
      (xs.filterMap Addition.input?) := by
    rw [foldl_add]
    exact AttributeTable.shows_empty.foldl_place _
  have houtputs : (xs.foldl add { stage, entry }).outputs.Shows
      (xs.filterMap Addition.output?) := by
    rw [foldl_add]
    exact AttributeTable.shows_empty.foldl_place _
  refine ⟨⟨hinputs, houtputs⟩, ?_, ⟨fun _ => hinputs.mem_used_iff, hinputs.pairwise_used⟩, ?_, ?_,
    fun _ => ⟨_, rfl⟩, fun _ => ⟨_, rfl⟩, fun _ => ⟨_, rfl⟩, fun _ => ⟨_, rfl⟩⟩
  · -- an attribute beyond the tables is placed nowhere
    intro a ha
    simp only [add, addInput, addOutput, AttributeTable.place_eq_self _ ha, and_self]
  · -- blocks and images are appended, so the first one on a slot is found
    intro slot b
    rw [block?, foldl_add]
    exact find?_eq_some_iff
  · intro slot m
    rw [image?, foldl_add]
    exact find?_eq_some_iff

end Interface

namespace Sample

/-- Additions of all kinds, some of which are for the same location or have the same slot. -/
def additions : List Addition :=
  [.input ⟨some 3, "color", "TEXCOORD", 1⟩, .image ⟨"tex", 2, .cube⟩,
    .input ⟨some 16, "far", "TEXCOORD", 2⟩, .output ⟨some 3, "color", "COLOR", 0⟩,
    .input ⟨some 0, "position", "TEXCOORD", 0⟩, .block ⟨"params", 1, 16, []⟩,
    .input ⟨some 3, "tint", "TEXCOORD", 1⟩, .input ⟨none, "unused", "", 0⟩,
    .image ⟨"mask", 2, .flat⟩]

/-- The second attribute for location 3 has replaced the first one, and the second image on slot 2
is not found. -/
theorem shows_last_finds_first_of_additions :
    ∃ i, additions.foldl Interface.add { stage := .vertex, entry := "main" } = i ∧
      i.inputs.used.map Attribute.name = ["position", "tint"] ∧
      IsFirstWith Image.slot 2 (additions.filterMap Addition.image?) ⟨"tex", 2, .cube⟩ ∧
      i.add (.input ⟨some 16, "beyond", "TEXCOORD", 2⟩) = i := by
  obtain ⟨-, hignored, -, -, himages, -⟩ :=
    Interface.shows_last_finds_first .vertex "main" additions _ rfl
  refine ⟨_, rfl, by decide, (himages 2 _).mp (by decide), ?_⟩
  exact (hignored _ (by decide)).1

end Sample

end ShaderHeader
