import Mathlib.Algebra.Order.Floor.Div
import Mathlib.Order.Bounds.Basic
import ShaderHeader.Proofs.WordArithmetic

/-!
# Rounding

Rounding by a mask is exact. The mask is applied to a sum that may be larger than the multiple that
comes out, and it is the sum that has to be a word. Still no number is refused too early: the sum
stays below the next multiple, and the first number that is no word is itself a multiple of every
power of two that is a word. So the sum and the multiple leave the words together.
-/

namespace ShaderHeader

/-! ### Multiples -/

/-- The multiples of a unit that are not below a number. -/
def multiplesFrom (unit n : Nat) : Set Nat :=
  {m | unit ∣ m ∧ n ≤ m}

/-- The least multiple of a unit that is not below a number. -/
def multipleAbove (unit n : Nat) : Nat :=
  (n ⌈/⌉ unit) * unit

section Multiples

variable {unit : Nat} (hunit : 0 < unit)
include hunit

lemma isLeast_multipleAbove (n : Nat) :
    IsLeast (multiplesFrom unit n) (multipleAbove unit n) := by
  rw [multipleAbove, Nat.mul_comm]
  constructor
  · exact ⟨Nat.dvd_mul_right _ _, (ceilDiv_le_iff_le_mul hunit).mp (Nat.le_refl _)⟩
  · rintro _ ⟨⟨q, rfl⟩, hle⟩
    exact Nat.mul_le_mul_left unit ((ceilDiv_le_iff_le_mul hunit).mpr hle)

/-- A limit that is a multiple of the unit is above the sum that is rounded down exactly if it is
above the result. -/
lemma add_lt_iff_multipleAbove_lt {limit n : Nat} (hlimit : unit ∣ limit) :
    n + (unit - 1) < limit ↔ multipleAbove unit n < limit := by
  obtain ⟨q, rfl⟩ := hlimit
  calc n + (unit - 1) < unit * q
    _ ↔ n + unit - 1 < q * unit := by rw [Nat.add_sub_assoc hunit, Nat.mul_comm]
    _ ↔ n ⌈/⌉ unit < q := (Nat.div_lt_iff_lt_mul hunit).symm
    _ ↔ multipleAbove unit n < unit * q := by
      rw [multipleAbove, Nat.mul_comm _ unit, Nat.mul_lt_mul_left hunit]

end Multiples

/-! ### Masks -/

section Masks

variable {k : Nat} (hk : k ≤ 32)
include hk

/-- The mask subtracts a remainder, and the sum is a word exactly if what is left is one. -/
lemma roundUp?_two_pow (n : Nat) : roundUp? n (2 ^ k) = word? (multipleAbove (2 ^ k) n) := by
  have hpos : 0 < 2 ^ k := Nat.two_pow_pos k
  have hlimit : 2 ^ k ∣ wordLimit := Nat.pow_dvd_pow 2 hk
  have hmask (v : Nat) : v - (v &&& (2 ^ k - 1)) = v / 2 ^ k * 2 ^ k := by
    rw [Nat.and_two_pow_sub_one_eq_mod, Nat.div_mul_self_eq_mod_sub_self]
  simp only [roundUp?, word?, add_lt_iff_multipleAbove_lt hpos hlimit]
  split_ifs
  · rw [Option.map_some, hmask, ← Nat.add_sub_assoc hpos]
    rfl
  · rfl

lemma roundUp?_two_pow_eq_some_iff {n r : Nat} :
    roundUp? n (2 ^ k) = some r ↔ IsLeast (multiplesFrom (2 ^ k) n) r ∧ r < wordLimit := by
  have hleast := isLeast_multipleAbove (Nat.two_pow_pos k) n
  rw [roundUp?_two_pow hk, word?_eq_some_iff]
  constructor
  · rintro ⟨hlt, rfl⟩
    exact ⟨hleast, hlt⟩
  · rintro ⟨hr, hlt⟩
    obtain rfl := hleast.unique hr
    exact ⟨hlt, rfl⟩

lemma exists_roundUp?_two_pow_le {n m : Nat} (hm : m ∈ multiplesFrom (2 ^ k) n)
    (hlt : m < wordLimit) : ∃ r ≤ m, roundUp? n (2 ^ k) = some r := by
  have hleast := isLeast_multipleAbove (Nat.two_pow_pos k) n
  have hle := hleast.2 hm
  exact ⟨_, hle, (roundUp?_two_pow_eq_some_iff hk).mpr ⟨hleast, Nat.lt_of_le_of_lt hle hlt⟩⟩

end Masks

/-- A number is rounded to the least multiple of a power of two that is not below it, and it is
refused exactly if this multiple is no word. So a result is rounded to itself, a smaller number is
rounded to a multiple that is not larger, and no number is refused for which some multiple is a
word. Words, whose sums wrap, are rounded in the same way by clearing bits. -/
theorem roundUp?_finds_least_multiple (unit : Nat) (hpow : unit.isPowerOfTwo)
    (hunit : unit < wordLimit) :
    (∀ value, ∃ least, IsLeast (multiplesFrom unit value) least ∧
      (least < wordLimit → roundUp? value unit = some least) ∧
      (roundUp? value unit = none ↔ wordLimit ≤ least)) ∧
    (∀ value r, roundUp? value unit = some r → roundUp? r unit = some r) ∧
    (∀ value larger s, value ≤ larger → roundUp? larger unit = some s →
      ∃ r ≤ s, roundUp? value unit = some r) ∧
    (∀ value, ∀ m ∈ multiplesFrom unit value, m < wordLimit →
      ∃ r ≤ m, roundUp? value unit = some r) ∧
    ∀ value : UInt32,
      (Words.roundUp? value (.ofNat unit)).map UInt32.toNat = roundUp? value.toNat unit := by
  obtain ⟨k, rfl⟩ := hpow
  have hk : k ≤ 32 := Nat.le_of_lt ((Nat.pow_lt_pow_iff_right (by decide)).mp hunit)
  refine ⟨fun value => ?_, fun value r hr => ?_, fun value larger s hle hs => ?_,
    fun value m hm hlt => exists_roundUp?_two_pow_le hk hm hlt, fun value => ?_⟩
  · refine ⟨_, isLeast_multipleAbove (Nat.two_pow_pos k) value, fun hlt => ?_, ?_⟩
    · rw [roundUp?_two_pow hk]
      exact word?_eq_some_iff.mpr ⟨hlt, rfl⟩
    · rw [roundUp?_two_pow hk, word?_eq_none_iff]
  · obtain ⟨⟨⟨hdvd, -⟩, -⟩, hlt⟩ := (roundUp?_two_pow_eq_some_iff hk).mp hr
    have hself : IsLeast (multiplesFrom (2 ^ k) r) r := ⟨⟨hdvd, Nat.le_refl r⟩, fun _ hm => hm.2⟩
    exact (roundUp?_two_pow_eq_some_iff hk).mpr ⟨hself, hlt⟩
  · -- what is rounded from a larger value is a multiple above the smaller one too
    obtain ⟨⟨⟨hdvd, hlarger⟩, -⟩, hlt⟩ := (roundUp?_two_pow_eq_some_iff hk).mp hs
    exact exists_roundUp?_two_pow_le hk ⟨hdvd, Nat.le_trans hle hlarger⟩ hlt
  · -- words: the unit fits into one and is not zero
    have hword : (UInt32.ofNat (2 ^ k)).toNat = 2 ^ k := UInt32.toNat_ofNat_of_lt' hunit
    have hne : UInt32.ofNat (2 ^ k) ≠ 0 := by
      intro hzero
      rw [hzero, UInt32.toNat_zero] at hword
      exact (Nat.two_pow_pos k).ne hword
    rw [Words.map_toNat_roundUp? value hne, hword]

namespace Sample

/-- The largest power of two that is a word is the only word but zero among its multiples. What lies
behind it is refused, also where the sum has wrapped. -/
theorem roundUp?_finds_least_multiple_of_topBit :
    roundUp? 1 0x80000000 = some 0x80000000 ∧
    roundUp? 0x80000000 0x80000000 = some 0x80000000 ∧
    (∃ r ≤ 0x80000000, roundUp? 0 0x80000000 = some r) ∧
    roundUp? 0x80000001 0x80000000 = none ∧
    (Words.roundUp? 0x80000001 0x80000000).map UInt32.toNat = none := by
  obtain ⟨hexact, htwice, hmono, -, hwords⟩ :=
    roundUp?_finds_least_multiple 0x80000000 ⟨31, rfl⟩ (by decide)
  have hone : roundUp? 1 0x80000000 = some 0x80000000 := by
    obtain ⟨_, ⟨⟨⟨q, rfl⟩, hle⟩, hleast⟩, hround, -⟩ := hexact 1
    have hq : 0x80000000 * q ≤ 0x80000000 := hleast ⟨Nat.dvd_refl _, by decide⟩
    obtain rfl : q = 1 := by omega
    exact hround (by decide)
  have hrefused : roundUp? 0x80000001 0x80000000 = none := by
    obtain ⟨_, ⟨⟨⟨q, rfl⟩, hle⟩, -⟩, -, hnone⟩ := hexact 0x80000001
    exact hnone.mpr (by unfold wordLimit; omega)
  exact ⟨hone, htwice _ _ hone, hmono 0 1 _ (by decide) hone, hrefused,
    (hwords 0x80000001).trans hrefused⟩

end Sample

end ShaderHeader
