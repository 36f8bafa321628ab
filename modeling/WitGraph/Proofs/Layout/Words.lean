/-
**Arithmetic with words.**

In words, sums and rounding up give what natural numbers give, or they fail. `guarded` says what such a
computation gives: the value, if all sums that are formed on the way are within reach, and otherwise the
fault of an overflow. `Arithmetic.Checks` says that an arithmetic computes in this way. So do natural
numbers, where every sum is within reach (`checks_exact`), and words, where the sums have to be words
(`checks_word`). What is proved from `Checks` holds for both.

Alignments are powers of two, and for these the mask rounds up like natural numbers do, as long as the sum
of the value and the alignment is a word (`maskUp_two_pow`).
-/

import Mathlib.Data.Nat.Prime.Basic
import WitGraph.Layout.Arithmetic
import WitGraph.Proofs.Success

namespace WitGraph

/-! ### Sums within reach -/

/-- The value, if all the sums that it takes are within reach. -/
def guarded {α : Type} (within : Nat → Bool) (sums : List Nat) (value : α) : Except AbiFault α :=
  if sums.all within then .ok value else .error .overflow

section Guarded

variable {α β : Type} {within : Nat → Bool} {sums more : List Nat} {value other : α} {result : β}

theorem guarded_of_all (all : ∀ sum ∈ sums, within sum) : guarded within sums value = .ok value :=
  if_pos (List.all_eq_true.mpr all)

theorem guarded_nil : guarded within [] value = .ok value := rfl

/-- Where everything is within reach, nothing fails. -/
theorem guarded_true : guarded (fun _ => true) sums value = .ok value :=
  guarded_of_all fun _ _ => rfl

theorem guarded_of_not {sum : Nat} (member : sum ∈ sums) (beyond : ¬ within sum) :
    guarded within sums value = .error .overflow :=
  if_neg fun all => beyond (List.all_eq_true.mp all sum member)

theorem guarded_eq_ok_iff :
    guarded within sums value = .ok other ↔ (∀ sum ∈ sums, within sum) ∧ value = other := by
  rw [guarded, ← List.all_eq_true]
  split
  · rename_i all
    simp [all]
  · rename_i notAll
    simp [notAll]

theorem eq_of_guarded (isOther : guarded within sums value = .ok other) : value = other :=
  (guarded_eq_ok_iff.mp isOther).2

/-- After one computation comes another one, with further sums. -/
theorem guarded_bind {next : α → Except AbiFault β} (isNext : next value = guarded within more result) :
    (guarded within sums value >>= next) = guarded within (sums ++ more) result := by
  unfold guarded
  rw [List.all_append]
  cases sums.all within with
  | true => exact isNext
  | false => rfl

theorem guarded_map (make : α → β) :
    (guarded within sums value >>= fun found => pure (make found))
      = guarded within sums (make value) := by
  unfold guarded
  split <;> rfl

end Guarded

namespace Arithmetic

/-- The arithmetic computes exactly, or it overflows at a sum that is not within reach. -/
structure Checks (arithmetic : Arithmetic) (within : Nat → Bool) : Prop where
  add : ∀ first second,
    arithmetic.add first second = guarded within [first + second] (first + second)
  alignUp : ∀ value {align : Nat}, align ∣ 32 →
    arithmetic.alignUp value align = guarded within [value + align] (roundUp value align)

theorem checks_exact : exact.Checks fun _ => true where
  add _ _ := guarded_true.symm
  alignUp _ _ _ := guarded_true.symm

/-- Whether a number is a word. -/
def isWord (number : Nat) : Bool := number < UInt64.size

theorem isWord_iff {number : Nat} : isWord number ↔ number < UInt64.size := decide_eq_true_iff

/-- A computation in words overflows if one of its sums is no word. -/
theorem guarded_of_size_le {α : Type} {sums : List Nat} {value : α} {sum : Nat} (member : sum ∈ sums)
    (beyond : UInt64.size ≤ sum) : guarded isWord sums value = .error .overflow :=
  guarded_of_not member fun inside => absurd (isWord_iff.mp inside) (Nat.not_lt.mpr beyond)

theorem addWords_eq (first second : Nat) :
    addWords first second = guarded isWord [first + second] (first + second) := by
  simp [addWords, guarded, isWord]

end Arithmetic

/-! ### Rounding up by a mask -/

/-- Clearing the low bits of a word rounds it down to a multiple of a power of two. -/
theorem and_highBits {value bits : Nat} (few : bits ≤ 64) (bound : value < 2 ^ 64) :
    value &&& (2 ^ 64 - 2 ^ bits) = value / 2 ^ bits * 2 ^ bits := by
  have mask : 2 ^ 64 - 2 ^ bits = (2 ^ (64 - bits) - 1) <<< bits := by
    rw [Nat.shiftLeft_eq, Nat.sub_mul, ← Nat.pow_add, Nat.sub_add_cancel few, Nat.one_mul]
  rw [mask, ← Nat.shiftRight_eq_div_pow, ← Nat.shiftLeft_eq]
  refine Nat.eq_of_testBit_eq fun bit => ?_
  rw [Nat.testBit_and, Nat.testBit_shiftLeft, Nat.testBit_shiftLeft, Nat.testBit_two_pow_sub_one,
    Nat.testBit_shiftRight]
  by_cases low : bits ≤ bit
  · rw [Nat.add_sub_cancel' low]
    by_cases high : bit < 64
    · simp [low, show bit - bits < 64 - bits by omega]
    · have clear : value.testBit bit = false :=
        Nat.testBit_lt_two_pow (Nat.lt_of_lt_of_le bound (Nat.pow_le_pow_right (by omega) (by omega)))
      simp [clear]
  · simp [low]

namespace Arithmetic

theorem toNat_mask {bits : Nat} (few : bits < 64) :
    (~~~(UInt64.ofNat (2 ^ bits) - 1)).toNat = 2 ^ 64 - 2 ^ bits := by
  have positive : 0 < 2 ^ bits := Nat.two_pow_pos bits
  have small : 2 ^ bits < 2 ^ 64 := Nat.pow_lt_pow_right (by omega) few
  rw [UInt64.toNat_not, UInt64.toNat_sub, UInt64.toNat_ofNat', UInt64.toNat_one]
  simp only [UInt64.size]
  omega

/-- **The mask rounds up like natural numbers do**, if the sum that is masked is a word. -/
theorem maskUp_two_pow (value bits : Nat) :
    maskUp value (2 ^ bits) = guarded isWord [value + 2 ^ bits] (roundUp value (2 ^ bits)) := by
  rw [maskUp, addWords_eq, guarded_map]
  by_cases room : value + 2 ^ bits < UInt64.size
  · have positive : 0 < 2 ^ bits := Nat.two_pow_pos bits
    have few : bits < 64 :=
      (Nat.pow_lt_pow_iff_right (by decide)).mp (Nat.lt_of_le_of_lt (Nat.le_add_left _ value) room)
    have below : (UInt64.ofNat (value + 2 ^ bits) - 1).toNat = value + 2 ^ bits - 1 := by
      rw [UInt64.toNat_sub, UInt64.toNat_ofNat', UInt64.toNat_one]
      simp only [UInt64.size] at room ⊢
      omega
    have masked : ((UInt64.ofNat (value + 2 ^ bits) - 1) &&& ~~~(UInt64.ofNat (2 ^ bits) - 1)).toNat
        = roundUp value (2 ^ bits) := by
      rw [UInt64.toNat_and, below, toNat_mask few,
        and_highBits few.le (Nat.lt_of_le_of_lt (Nat.sub_le _ _) room), roundUp]
    rw [masked]
  · have beyond : UInt64.size ≤ value + 2 ^ bits := Nat.not_lt.mp room
    rw [guarded_of_size_le (List.mem_singleton_self _) beyond,
      guarded_of_size_le (List.mem_singleton_self _) beyond]

theorem checks_word : word.Checks isWord where
  add := addWords_eq
  alignUp value align divides := by
    obtain ⟨bits, -, rfl⟩ : ∃ bits ≤ 5, align = 2 ^ bits :=
      (Nat.dvd_prime_pow Nat.prime_two).mp divides
    exact maskUp_two_pow value bits

/-- Both arithmetics check their sums. -/
theorem exists_checks {arithmetic : Arithmetic} (either : arithmetic = exact ∨ arithmetic = word) :
    ∃ within, arithmetic.Checks within := by
  rcases either with rfl | rfl
  · exact ⟨_, checks_exact⟩
  · exact ⟨_, checks_word⟩

end Arithmetic

end WitGraph
