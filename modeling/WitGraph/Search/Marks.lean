/-
**Sets of numbers as bits.**

A search marks what it has entered. `Marks` keeps the set of marked numbers as the bits of one
natural number; `has_mark` and `has_none` are all that the rest needs to know about it.
-/

namespace WitGraph

/-- A set of natural numbers. -/
structure Marks where
  bits : Nat
deriving DecidableEq, Repr

namespace Marks

/-- The set without members. -/
def none : Marks := ⟨0⟩

/-- Whether a number is marked. -/
def has (marks : Marks) (number : Nat) : Bool := marks.bits.testBit number

/-- The set with one more number. -/
def mark (marks : Marks) (number : Nat) : Marks := ⟨marks.bits ||| (1 <<< number)⟩

/-- The set of the numbers in a list. -/
def ofList (numbers : List Nat) : Marks := numbers.foldl mark none

/-- Nothing is marked at first. -/
@[simp] theorem has_none (number : Nat) : none.has number = false := by
  simp [none, has]

/-- Marking a number marks it and nothing else. -/
theorem has_mark (marks : Marks) (number other : Nat) :
    (marks.mark number).has other = (other == number || marks.has other) := by
  simp only [has, mark, Nat.testBit_or, Nat.shiftLeft_eq, Nat.one_mul, Nat.testBit_two_pow]
  by_cases same : other = number
  · simp [same]
  · simp [same, Ne.symm same]

end Marks

end WitGraph
