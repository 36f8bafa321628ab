/-
**Decimal numerals.**

The digits of a natural number are decimal digits, of which the first is zero only for zero itself.
Other digits than these are not the numeral of a number: `toDigits_ofDigitChars`.
-/

namespace WitGraph

theorem isDigit_of_mem_toDigits {value : Nat} {char : Char} (member : char ∈ Nat.toDigits 10 value) :
    char.isDigit = true :=
  Nat.isDigit_of_mem_toDigits (by decide) (by decide) member

/-- Only zero is written with a leading zero. -/
theorem toDigits_eq_cons {value : Nat} (positive : 0 < value) :
    ∃ first rest, Nat.toDigits 10 value = first :: rest ∧ first ≠ '0' := by
  induction value using Nat.strongRecOn with
  | ind value ih =>
    by_cases small : value < 10
    · have nonzero : ∀ digit < 10, 0 < digit → digit.digitChar ≠ '0' := by decide
      exact ⟨_, [], Nat.toDigits_of_lt_base small, nonzero value small positive⟩
    · obtain ⟨first, rest, leading, nonzero⟩ := ih (value / 10) (by omega) (by omega)
      refine ⟨first, rest ++ [(value % 10).digitChar], ?_, nonzero⟩
      rw [Nat.toDigits_of_base_le (by decide) (Nat.le_of_not_lt small), leading]
      rfl

theorem digitChar_of_isDigit {char : Char} (digit : char.isDigit = true) :
    char.toNat - '0'.toNat < 10 ∧ (char.toNat - '0'.toNat).digitChar = char := by
  simp only [Char.isDigit, Bool.and_eq_true, decide_eq_true_eq, UInt32.le_iff_toNat_le,
    ge_iff_le] at digit
  change '0'.toNat ≤ char.toNat ∧ char.toNat ≤ '9'.toNat at digit
  have zero : '0'.toNat = 48 := rfl
  have nine : '9'.toNat = 57 := rfl
  refine ⟨by omega, Char.toNat_inj.mp ?_⟩
  rw [Nat.toNat_digitChar_of_lt_ten (by omega)]
  omega

/-- Further digits behind the numeral of a positive number make a longer numeral. -/
theorem toDigits_ofDigitChars_append {digits : List Char} {value : Nat} (positive : 0 < value)
    (areDigits : ∀ char ∈ digits, char.isDigit = true) :
    Nat.toDigits 10 (Nat.ofDigitChars 10 digits value) = Nat.toDigits 10 value ++ digits := by
  induction digits generalizing value with
  | nil => rw [Nat.ofDigitChars_nil, List.append_nil]
  | cons char rest ih =>
    obtain ⟨isDigit, others⟩ := List.forall_mem_cons.mp areDigits
    obtain ⟨small, written⟩ := digitChar_of_isDigit isDigit
    rw [Nat.ofDigitChars_cons, ih (by omega) others,
      ← Nat.toDigits_append_toDigits (by decide) positive small, Nat.toDigits_of_lt_base small, written,
      List.append_assoc, List.singleton_append]

/-- Digits without a leading zero are the numeral of the number that they are read as. -/
theorem toDigits_ofDigitChars {digits : List Char} (nonempty : digits ≠ [])
    (areDigits : ∀ char ∈ digits, char.isDigit = true)
    (leading : digits.head? = some '0' → digits = ['0']) :
    Nat.toDigits 10 (Nat.ofDigitChars 10 digits 0) = digits := by
  obtain ⟨first, rest, rfl⟩ := List.exists_cons_of_ne_nil nonempty
  by_cases zero : first = '0'
  · rw [leading (congrArg some zero)]
    rfl
  · obtain ⟨isDigit, others⟩ := List.forall_mem_cons.mp areDigits
    obtain ⟨small, written⟩ := digitChar_of_isDigit isDigit
    have positive : 0 < first.toNat - '0'.toNat := by
      refine Nat.pos_of_ne_zero fun isZero => zero ?_
      rw [← written, isZero]
      rfl
    rw [Nat.ofDigitChars_cons, Nat.mul_zero, Nat.zero_add,
      toDigits_ofDigitChars_append positive others,
      Nat.toDigits_of_lt_base small, written, List.singleton_append]

end WitGraph
