/-
**Arithmetic of sizes.**

Sizes and offsets are built by addition and by rounding up to a multiple of an alignment. `exact`
does this with natural numbers, and nothing can go wrong. `word` does it with 64-bit words, and this
is what the layouts in use are computed with: a sum that is not a word is a fault, and rounding up
clears the low bits of a sum by a mask. The sum is that of the value and the whole alignment, so a
value can be too large to be rounded up although the multiple itself is a word.

`roundUp_isLeast` says that rounding up gives the least multiple that is not below the value.
-/

import WitGraph.Abi.Fault

namespace WitGraph

/-- How sizes are added and rounded up. -/
structure Arithmetic where
  add : Nat → Nat → Except AbiFault Nat
  /-- `alignUp value align` is the least multiple of `align` that is not below `value`. -/
  alignUp : Nat → Nat → Except AbiFault Nat

/-- The least multiple of `align` that is not below `value`, for a positive `align`. -/
def roundUp (value align : Nat) : Nat := (value + align - 1) / align * align

/-- Rounding up does not go below the value. -/
theorem le_roundUp (value : Nat) {align : Nat} (positive : 0 < align) :
    value ≤ roundUp value align := by
  have split := Nat.div_add_mod (value + align - 1) align
  have bound := Nat.mod_lt (value + align - 1) positive
  unfold roundUp
  rw [Nat.mul_comm] at split
  omega

/-- Rounding up gives a multiple. -/
theorem dvd_roundUp (value align : Nat) : align ∣ roundUp value align :=
  Nat.dvd_mul_left _ _

/-- Every multiple that is not below the value is not below the value rounded up. -/
theorem roundUp_isLeast {value align multiple : Nat} (positive : 0 < align)
    (divides : align ∣ multiple) (above : value ≤ multiple) : roundUp value align ≤ multiple := by
  obtain ⟨factor, rfl⟩ := divides
  unfold roundUp
  rw [Nat.mul_comm align factor]
  apply Nat.mul_le_mul_right
  have below : (value + align - 1) / align < factor + 1 := by
    rw [Nat.div_lt_iff_lt_mul positive, Nat.succ_mul, Nat.mul_comm factor align]
    omega
  omega

namespace Arithmetic

/-- Natural numbers. -/
def exact : Arithmetic where
  add first second := .ok (first + second)
  alignUp value align := .ok (roundUp value align)

/-- The sum of two words, which has to be a word. -/
def addWords (first second : Nat) : Except AbiFault Nat :=
  if first + second < UInt64.size then .ok (first + second) else .error .overflow

/-- Rounding up to a multiple of a power of two, by adding it and clearing the low bits of what comes
before the sum. -/
def maskUp (value align : Nat) : Except AbiFault Nat := do
  let sum ← addWords value align
  return ((UInt64.ofNat sum - 1) &&& ~~~(UInt64.ofNat align - 1)).toNat

/-- Words of 64 bits. -/
def word : Arithmetic where
  add := addWords
  alignUp := maskUp

end Arithmetic

end WitGraph
