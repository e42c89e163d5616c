import ShaderHeader.HostStruct
import ShaderHeader.Proofs.Check
import ShaderHeader.Proofs.Rounding

/-!
# The layout of host structs

A block has a host struct exactly if its uniforms follow one another without overlapping and end
within the declared size. Then the struct is `membersFrom 0`, filled up to the stride: its members
are determined without any check on the way.
-/

namespace ShaderHeader

open Check

/-! ### Rounding -/

/-- The least multiple of the stride that is not below a number. -/
def strideAbove (n : Nat) : Nat :=
  (n + 15) / 16 * 16

lemma isLeast_strideAbove (n : Nat) : IsLeast (multiplesFrom blockStride n) (strideAbove n) :=
  isLeast_multipleAbove (by decide) n

lemma le_strideAbove (n : Nat) : n ≤ strideAbove n :=
  (isLeast_strideAbove n).1.2

lemma strideAbove_lt (n : Nat) : strideAbove n < n + 16 := by
  unfold strideAbove; omega

lemma dvd_strideAbove (n : Nat) : blockStride ∣ strideAbove n :=
  (isLeast_strideAbove n).1.1

lemma roundUp?_blockStride_eq_some_iff {v r : Nat} :
    roundUp? v blockStride = some r ↔ v + 15 < wordLimit ∧ strideAbove v = r := by
  have hround : roundUp? v blockStride = word? (strideAbove v) :=
    roundUp?_two_pow (by decide : 4 ≤ 32) v
  have hfits : v + 15 < wordLimit ↔ strideAbove v < wordLimit :=
    add_lt_iff_multipleAbove_lt (by decide : 0 < blockStride) (by decide)
  rw [hround, word?_eq_some_iff, hfits]

lemma Block.roundedSize?_eq_some_iff {b : Block} {r : Nat} :
    b.roundedSize? = some r ↔ b.size + 15 < wordLimit ∧ strideAbove b.size = r :=
  roundUp?_blockStride_eq_some_iff

/-! ### Uniforms -/

namespace Uniform

/-- The bytes of all elements. -/
def hostSize (u : Uniform) : Nat :=
  u.type.size * u.count

/-- Where a uniform ends that starts at its offset. -/
def stop (u : Uniform) : Nat :=
  u.offset + u.hostSize

/-- If the end is a word then so is the size, which is checked first. -/
lemma end?_eq_some_iff {u : Uniform} {n : Nat} :
    u.end? = some n ↔ u.stop < wordLimit ∧ u.stop = n := by
  simp only [end?, hostSize?, Option.bind_eq_some_iff, word?_eq_some_iff, stop, hostSize]
  constructor
  · rintro ⟨_, ⟨-, rfl⟩, h⟩
    exact h
  · rintro ⟨h, rfl⟩
    exact ⟨_, ⟨by omega, rfl⟩, h, rfl⟩

end Uniform

/-- Where the last of some uniforms ends, and the cursor if there is none. -/
def stopFrom (cursor : Nat) (us : List Uniform) : Nat :=
  (us.getLast?.map Uniform.stop).getD cursor

@[simp] lemma stopFrom_nil (cursor : Nat) : stopFrom cursor [] = cursor := rfl

@[simp] lemma stopFrom_cons (cursor : Nat) (u : Uniform) (us : List Uniform) :
    stopFrom cursor (u :: us) = stopFrom u.stop us := by
  cases us with
  | nil => rfl
  | cons v us => simp [stopFrom, List.getLast?_eq_some_getLast]

/-- Some uniforms follow one another from the cursor on, and each of them can be counted in
words. -/
def FollowFrom : Nat → List Uniform → Prop
  | _, []           => True
  | cursor, u :: us =>
    u.count ≠ 0 ∧ cursor ≤ u.offset ∧ u.stop < wordLimit ∧ FollowFrom u.stop us

variable (types : NameTable String)

/-- The field of a uniform. -/
def Uniform.field (u : Uniform) : Member :=
  .field u.name u.offset (.ofUniformType types u.type) u.count

/-- The fields of some uniforms with all gaps filled, from the cursor on. -/
def membersFrom : Nat → List Uniform → List Member
  | _, []           => []
  | cursor, u :: us => pad cursor u.offset ++ u.field types :: membersFrom u.stop us

variable {types}

lemma eq_padding_of_mem_pad {start stop : Nat} {m : Member} (h : m ∈ pad start stop) :
    m = .padding start (stop - start) := by
  unfold pad at h
  split_ifs at h
  · exact List.mem_singleton.mp h
  · cases h

lemma placeUniforms_eq_ok_iff {cursor : Nat} {us : List Uniform} {ms : List Member}
    {last : Nat} :
    placeUniforms types cursor us = .ok (ms, last) ↔
      FollowFrom cursor us ∧ membersFrom types cursor us = ms ∧ stopFrom cursor us = last := by
  induction us generalizing cursor ms last with
  | nil => simp [placeUniforms, FollowFrom, membersFrom]
  | cons u us ih =>
    simp only [placeUniforms, FollowFrom, membersFrom, stopFrom_cons]
    split_ifs with hcount hoffset
    · simp [hcount]
    · have hle : ¬ cursor ≤ u.offset := Nat.not_le.mpr hoffset
      simp [hle]
    · cases hend : u.end? with
      -- the uniform would end beyond all words
      | none =>
        have hstop : ¬ u.stop < wordLimit := by
          intro h
          simp [Uniform.end?_eq_some_iff.mpr ⟨h, rfl⟩] at hend
        simp [hstop]
      | some next =>
        obtain ⟨hlt, rfl⟩ := Uniform.end?_eq_some_iff.mp hend
        have hle : u.offset ≥ cursor := Nat.le_of_not_lt hoffset
        -- the uniform is placed, and the cursor of the rest is its end
        simp only [bind_eq_ok_iff, Prod.exists, ih, pure_eq_ok_iff, Prod.mk.injEq]
        constructor
        · rintro ⟨_, _, ⟨hfollow, rfl, rfl⟩, rfl, rfl⟩
          exact ⟨⟨hcount, hle, hlt, hfollow⟩, rfl, rfl⟩
        · rintro ⟨⟨-, -, -, hfollow⟩, rfl, rfl⟩
          exact ⟨_, _, ⟨hfollow, rfl, rfl⟩, rfl, rfl⟩

/-! ### Blocks -/

/-- Where the last uniform of a block ends. -/
def Block.stop (b : Block) : Nat :=
  stopFrom 0 b.uniforms

/-- A number up to some multiple of the stride can be rounded up without leaving it. -/
lemma strideAbove_le_of_le {n m : Nat} (h : n ≤ strideAbove m) : strideAbove n ≤ strideAbove m :=
  (isLeast_strideAbove n).2 ⟨dvd_strideAbove m, h⟩

/-- Where the last uniform of a block ends can be rounded up if the block has room for it. -/
lemma Block.roundUp?_stop {b : Block} (hsize : b.size + 15 < wordLimit)
    (hle : b.stop ≤ strideAbove b.size) :
    roundUp? b.stop blockStride = some (strideAbove b.stop) := by
  refine roundUp?_blockStride_eq_some_iff.mpr ⟨?_, rfl⟩
  unfold strideAbove at hle; unfold wordLimit at *; omega

/-- A block has a host struct exactly if its uniforms follow one another and end within its declared
size. The struct ends with the stride in which the last uniform ends. -/
lemma HostStruct.ofBlock?_eq_ok_iff {b : Block} {s : HostStruct} :
    HostStruct.ofBlock? types b = .ok s ↔
      b.size + 15 < wordLimit ∧ FollowFrom 0 b.uniforms ∧ b.stop ≤ strideAbove b.size ∧
        s = ⟨b.name, b.slot, membersFrom types 0 b.uniforms ++ pad b.stop (strideAbove b.stop),
          strideAbove b.stop⟩ := by
  rw [ofBlock?]
  cases hrounded : b.roundedSize? with
  | none =>
    have hsize : ¬ b.size + 15 < wordLimit := by
      intro h
      simp [Block.roundedSize?_eq_some_iff.mpr ⟨h, rfl⟩] at hrounded
    simp [hsize]
  | some declared =>
    obtain ⟨hsize, rfl⟩ := Block.roundedSize?_eq_some_iff.mp hrounded
    simp only [bind_eq_ok_iff, Prod.exists, placeUniforms_eq_ok_iff]
    constructor
    · rintro ⟨_, _, ⟨hfollow, rfl, rfl⟩, h⟩
      -- the struct is not larger than the block, so its size can be rounded too
      split_ifs at h with hover
      split at h
      · cases h
      · next size hround =>
        obtain ⟨-, rfl⟩ := roundUp?_blockStride_eq_some_iff.mp hround
        exact ⟨hsize, hfollow, Nat.le_of_not_lt hover, (Except.ok.inj h).symm⟩
    · rintro ⟨-, hfollow, hle, rfl⟩
      refine ⟨_, _, ⟨hfollow, rfl, rfl⟩, ?_⟩
      have hround := Block.roundUp?_stop hsize hle
      rw [Block.stop] at hle hround
      simp [Nat.not_lt.mpr hle, hround, Block.stop]

namespace HostStruct

variable {b : Block} {s : HostStruct}

/-- A host struct is declared for the slot of its block and under its name. -/
lemma block_slot_of_ofBlock? (h : ofBlock? types b = .ok s) :
    s.block = b.name ∧ s.slot = b.slot := by
  obtain ⟨-, -, -, rfl⟩ := ofBlock?_eq_ok_iff.mp h
  exact ⟨rfl, rfl⟩

lemma members_eq (h : ofBlock? types b = .ok s) :
    s.members = membersFrom types 0 b.uniforms ++ pad b.stop s.size := by
  obtain ⟨-, -, -, rfl⟩ := ofBlock?_eq_ok_iff.mp h
  rfl

/-- A host struct is as large as the declared size of its block unless a whole stride at the end of
the block is not used. -/
lemma size_of_ofBlock? (h : ofBlock? types b = .ok s) :
    b.roundedSize? = some (strideAbove b.size) ∧ s.size = strideAbove b.stop ∧
      s.size ≤ strideAbove b.size ∧
      (s.size = strideAbove b.size ↔ strideAbove b.size < b.stop + blockStride) := by
  obtain ⟨hsize, -, hle, rfl⟩ := ofBlock?_eq_ok_iff.mp h
  have hfit := strideAbove_le_of_le hle
  refine ⟨Block.roundedSize?_eq_some_iff.mpr ⟨hsize, rfl⟩, rfl, hfit, ?_⟩
  constructor
  · intro heq
    exact heq ▸ strideAbove_lt b.stop
  · intro hlt
    have hup := le_strideAbove b.stop
    change strideAbove b.stop = strideAbove b.size
    unfold blockStride at hlt; unfold strideAbove at *; omega

end HostStruct

end ShaderHeader
