/-!
# Words

Sizes, offsets and slots are natural numbers. The device counts them in 32 bits, so every sum or
product that leaves that range has to be noticed: `word?` is the check, and nothing ever wraps.

`roundUp?` rounds to a power of two in the way the device does, by a mask.
-/

namespace ShaderHeader

/-- The number of values of a 32-bit word. -/
def wordLimit : Nat := 0x100000000

/-- The number itself, if a word can hold it. -/
def word? (n : Nat) : Option Nat :=
  if n < wordLimit then some n else none

@[simp] theorem word?_eq_some_iff {n m : Nat} : word? n = some m ↔ n < wordLimit ∧ n = m := by
  simp [word?]

@[simp] theorem word?_eq_none_iff {n : Nat} : word? n = none ↔ wordLimit ≤ n := by
  simp [word?]

/-- Rounds up to a multiple of `unit`, a power of two: one less than `unit` is added and the bits
below it are cleared. There is no result if the sum is no word. -/
def roundUp? (value unit : Nat) : Option Nat :=
  (word? (value + (unit - 1))).map fun v => v - (v &&& (unit - 1))

end ShaderHeader
