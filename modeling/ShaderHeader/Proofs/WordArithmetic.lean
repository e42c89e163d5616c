import Mathlib.Tactic.Common
import ShaderHeader.Word

/-!
# Arithmetic in words

The host counts in words of 32 bits, whose sums and products wrap. Whether one has wrapped is seen
from the result alone. What is not refused for that reason is exactly what `word?` lets through of
the sum or the product of the numbers, and a word is rounded as its number is.
-/

namespace ShaderHeader

namespace Words

/-- The sum of two words. It has wrapped if it is smaller than one of them. -/
def add? (a b : UInt32) : Option UInt32 :=
  if a + b < a then none else some (a + b)

/-- The product of two words. It has wrapped if dividing it does not lead back. -/
def mul? (a b : UInt32) : Option UInt32 :=
  if b ≠ 0 ∧ a * b / b ≠ a then none else some (a * b)

/-- Rounds up to a multiple of `unit`, a power of two, by clearing the bits below it. -/
def roundUp? (value unit : UInt32) : Option UInt32 :=
  (add? value (unit - 1)).map (· &&& ~~~(unit - 1))

variable (a b : UInt32)

lemma map_toNat_add? : (add? a b).map UInt32.toNat = word? (a.toNat + b.toNat) := by
  have hb := b.toNat_lt
  have hsum := a.toNat_add b
  unfold add? word? wordLimit
  simp only [UInt32.lt_iff_toNat_lt, hsum]
  split_ifs
  · omega
  · rfl
  · rw [Option.map_some, hsum, Nat.mod_eq_of_lt (by omega)]
  · omega

/-- A quotient of the wrapped product is too small, as the product itself is. -/
lemma map_toNat_mul? : (mul? a b).map UInt32.toNat = word? (a.toNat * b.toNat) := by
  have hproduct := a.toNat_mul b
  -- dividing the product takes back the factor unless the product has wrapped
  have hback : b ≠ 0 ∧ a * b / b ≠ a ↔ ¬ a.toNat * b.toNat < wordLimit := by
    simp only [ne_eq, ← UInt32.toNat_inj, UInt32.toNat_div, hproduct, UInt32.toNat_zero, wordLimit]
    constructor
    · rintro ⟨hb, hback⟩ hlt
      rw [Nat.mod_eq_of_lt hlt, Nat.mul_div_cancel _ (Nat.pos_of_ne_zero hb)] at hback
      exact hback rfl
    · intro hle
      refine ⟨fun hb => hle (by simp [hb]), fun hback => ?_⟩
      have hdiv := Nat.div_mul_le_self (a.toNat * b.toNat % 2 ^ 32) b.toNat
      have hmod := Nat.mod_lt (a.toNat * b.toNat) (Nat.two_pow_pos 32)
      rw [hback] at hdiv
      omega
  unfold mul? word?
  rw [if_congr hback rfl rfl, ite_not]
  split_ifs with hlt
  · rw [Option.map_some, hproduct]
    exact congrArg some (Nat.mod_eq_of_lt hlt)
  · rfl

/-- Clearing some bits of a word subtracts them. -/
lemma toNat_and_not (mask : UInt32) :
    (a &&& ~~~mask).toNat = a.toNat - (a.toNat &&& mask.toNat) := by
  -- the bits outside of the mask and those in it add up without a carry
  have hdisjoint : (a.toBitVec &&& ~~~mask.toBitVec) &&& (a.toBitVec &&& mask.toBitVec) = 0#32 := by
    ext i
    simp only [BitVec.getElem_and, BitVec.getElem_not, BitVec.getElem_zero]
    cases a.toBitVec[i] <;> cases mask.toBitVec[i] <;> rfl
  have hall :
      (a.toBitVec &&& ~~~mask.toBitVec) ||| (a.toBitVec &&& mask.toBitVec) = a.toBitVec := by
    ext i
    simp only [BitVec.getElem_or, BitVec.getElem_and, BitVec.getElem_not]
    cases a.toBitVec[i] <;> cases mask.toBitVec[i] <;> rfl
  have hsum := BitVec.toNat_add_of_and_eq_zero hdisjoint
  rw [BitVec.add_eq_or_of_and_eq_zero _ _ hdisjoint, hall] at hsum
  change (a.toBitVec &&& ~~~mask.toBitVec).toNat =
    a.toBitVec.toNat - (a.toBitVec.toNat &&& mask.toBitVec.toNat)
  rw [← BitVec.toNat_and]
  omega

lemma map_toNat_roundUp? {unit : UInt32} (h : unit ≠ 0) :
    (roundUp? a unit).map UInt32.toNat = ShaderHeader.roundUp? a.toNat unit.toNat := by
  have hone : (unit - 1).toNat = unit.toNat - 1 := by
    apply UInt32.toNat_sub_of_le
    rw [UInt32.le_iff_toNat_le, UInt32.toNat_one]
    exact Nat.pos_of_ne_zero fun hunit => h (UInt32.toNat_inj.mp hunit)
  rw [roundUp?, ShaderHeader.roundUp?, ← hone, ← map_toNat_add?, Option.map_map, Option.map_map]
  congr 1
  funext v
  exact toNat_and_not v _

end Words

end ShaderHeader
