/-
**Flags are packed into as little as they fit in.**

The layout of flags and the number of words in their flat form are computed apart from each other, both by
rounding the number of flags up to whole words. `PacksFlags` says what both have to be: the least size that
has a bit for every flag, and the least number of words that does.

Rounding up clears the low bits of a word by a mask. This gives the least multiple that is not below the
value, if the sum of value and alignment is a word (`isLeast_maskUp`). Where that sum is `2 ^ 64` already,
rounding up fails, although the multiple is a word and nothing is to be added: sizes just below the limit
have no layout for this reason (`exists_multiple_refused`).
-/

import WitGraph.Proofs.Layout.Fields
import WitGraph.Proofs.Layout.Pairs

namespace WitGraph

/-! ### Rounding up by a mask -/

namespace Arithmetic

variable {value bits : Nat}

/-- **The mask gives the least multiple** of a power of two that is not below the value, if there is
room for the sum. -/
theorem isLeast_maskUp (room : value + 2 ^ bits < UInt64.size) : ∃ multiple,
    maskUp value (2 ^ bits) = .ok multiple
      ∧ IsLeast {multiple | 2 ^ bits ∣ multiple ∧ value ≤ multiple} multiple := by
  refine ⟨roundUp value (2 ^ bits), ?_, isLeast_roundUp value (Nat.two_pow_pos bits)⟩
  rw [maskUp_two_pow]
  exact guarded_of_all fun sum member => by rwa [List.mem_singleton.mp member, isWord_iff]

theorem maskUp_of_le (noRoom : UInt64.size ≤ value + 2 ^ bits) :
    maskUp value (2 ^ bits) = .error .overflow := by
  rw [maskUp_two_pow]
  exact guarded_of_size_le (List.mem_singleton_self _) noRoom

end Arithmetic

/-! ### Words of flags -/

namespace FlagsShape

variable {flags words : Nat}

theorem wordCount_eq (flags : Nat) : wordCount flags = (flags + 31) / 32 := by
  rw [wordCount, roundUp, Nat.mul_div_cancel _ (by decide)]
  rfl

/-- So many words have a bit for every flag. -/
theorem wordCount_le_iff : wordCount flags ≤ words ↔ flags ≤ 32 * words := by
  rw [wordCount_eq]
  omega

theorem isLeast_wordCount (flags : Nat) : IsLeast {words | flags ≤ 32 * words} (wordCount flags) :=
  ⟨wordCount_le_iff.mp (Nat.le_refl _), fun _ => wordCount_le_iff.mpr⟩

/-- The mask counts as many words as natural numbers do, if there is room. -/
theorem maskUp_flags (room : flags + 32 < UInt64.size) :
    Arithmetic.maskUp flags 32 = .ok (32 * wordCount flags) := by
  have counted : roundUp flags 32 = 32 * wordCount flags := by
    rw [wordCount, Nat.mul_div_cancel' (dvd_roundUp flags 32)]
  rw [← counted]
  refine (Arithmetic.maskUp_two_pow flags 5).trans (guarded_of_all fun sum member => ?_)
  rwa [List.mem_singleton.mp member, Arithmetic.isWord_iff]

end FlagsShape

open FlagsShape

/-! ### Sizes of flags -/

/-- The sizes that flags can have: a byte, two bytes, or some words. Even no flags at all take a byte. -/
def IsFlagsSize (bytes : Nat) : Prop :=
  bytes = 1 ∨ bytes = 2 ∨ ∃ words, 0 < words ∧ bytes = 4 * words

/-- What the size of some flags in bytes and the number of words in their flat form have to be. -/
structure PacksFlags (flags size words : Nat) : Prop where
  /-- The size is the least that has a bit for every flag. -/
  leastSize : IsLeast {bytes | IsFlagsSize bytes ∧ flags ≤ 8 * bytes} size
  /-- There are no more words than it takes to have a bit for every flag. -/
  leastWords : IsLeast {words | flags ≤ 32 * words} words
  agree : 16 < flags → size = 4 * words

namespace CanonicalAbi

variable {count bytes : Nat}

theorem size_flags (count : Nat) : (flags count).size
    = if count ≤ 8 then 1 else if count ≤ 16 then 2 else 4 * wordCount count := by
  rw [wordCount_eq]
  unfold flags
  split
  · rfl
  · split <;> rfl

theorem isFlagsSize_flags (count : Nat) : IsFlagsSize (flags count).size := by
  rw [size_flags]
  split
  · exact Or.inl rfl
  · split
    · exact Or.inr (Or.inl rfl)
    · have enough := (isLeast_wordCount count).1
      exact Or.inr (Or.inr ⟨wordCount count, by grind, rfl⟩)

/-- Every flag has a bit. -/
theorem count_le_size_flags (count : Nat) : count ≤ 8 * (flags count).size := by
  have enough : count ≤ 32 * wordCount count := (isLeast_wordCount count).1
  rw [size_flags]
  split
  · assumption
  · split <;> omega

/-- Nothing smaller has a bit for every flag. -/
theorem size_flags_le (isSize : IsFlagsSize bytes) (fits : count ≤ 8 * bytes) :
    (flags count).size ≤ bytes := by
  rw [size_flags]
  rcases isSize with rfl | rfl | ⟨words, some, rfl⟩
  · rw [if_pos fits]
  · split <;> decide
  · have fewest : wordCount count ≤ words := wordCount_le_iff.mpr (by omega)
    split
    · omega
    · split <;> omega

theorem packsFlags_flags (count : Nat) : PacksFlags count (flags count).size (wordCount count) where
  leastSize := ⟨⟨isFlagsSize_flags count, count_le_size_flags count⟩,
    fun _ ⟨isSize, fits⟩ => size_flags_le isSize fits⟩
  leastWords := isLeast_wordCount count
  agree many := by rw [size_flags, if_neg (by omega), if_neg (by omega)]

end CanonicalAbi

/-- Flags have a layout if there is room for rounding up their number. -/
theorem LayoutTable.calculate_flags {table : LayoutTable} {within : Nat → Bool}
    (checks : table.arithmetic.Checks within) {labels : List Label} (room : within (labels.length + 32)) :
    table.calculate (.flags labels) = .ok (CanonicalAbi.flags labels.length) := by
  refine (Extent.ofFlags_eq checks labels.length).trans (guarded_of_all fun sum member => ?_)
  unfold CanonicalAbi.flagsSums at member
  split at member
  · cases member
  · rwa [List.mem_singleton.mp member]

/-- **Rounding up gives the least multiple, and flags take as little as they fit in**: the mask gives the
least multiple of a power of two if the sum of value and power is a word, and fails otherwise. The layout
and the flat form of any number of flags are the least that have a bit for each, and words count them as
natural numbers do, if there is room for rounding up their number. -/
theorem maskUp_packsFlags (value bits : Nat) (table : LayoutTable) (labels : List Label) :
    (value + 2 ^ bits < UInt64.size → ∃ multiple, Arithmetic.maskUp value (2 ^ bits) = .ok multiple
        ∧ IsLeast {multiple | 2 ^ bits ∣ multiple ∧ value ≤ multiple} multiple)
      ∧ (UInt64.size ≤ value + 2 ^ bits → Arithmetic.maskUp value (2 ^ bits) = .error .overflow)
      ∧ (table.arithmetic = .exact → ∃ extent, table.calculate (.flags labels) = .ok extent
        ∧ PacksFlags labels.length extent.size (wordCount labels.length))
      ∧ (table.arithmetic = .word → labels.length + 32 < UInt64.size →
        Arithmetic.maskUp labels.length 32 = .ok (32 * wordCount labels.length)
          ∧ ∃ extent, table.calculate (.flags labels) = .ok extent
            ∧ PacksFlags labels.length extent.size (wordCount labels.length)) := by
  refine ⟨Arithmetic.isLeast_maskUp, Arithmetic.maskUp_of_le, fun inNumbers => ?_,
    fun inWords room => ⟨maskUp_flags room, ?_⟩⟩
  · have checks : table.arithmetic.Checks fun _ => true := inNumbers ▸ Arithmetic.checks_exact
    exact ⟨_, LayoutTable.calculate_flags checks rfl, CanonicalAbi.packsFlags_flags _⟩
  · have checks : table.arithmetic.Checks Arithmetic.isWord := inWords ▸ Arithmetic.checks_word
    exact ⟨_, LayoutTable.calculate_flags checks (Arithmetic.isWord_iff.mpr room),
      CanonicalAbi.packsFlags_flags _⟩

/-- The last but one multiple of eight in a word is rounded up to itself, and one flag more than a word of
32 bits has takes two of them. -/
theorem maskUp_packsFlags_last :
    (2 ^ 64 - 16 + 2 ^ 3 < UInt64.size ∧ Arithmetic.maskUp (2 ^ 64 - 16) (2 ^ 3) = .ok (2 ^ 64 - 16)
      ∧ IsLeast {multiple | 2 ^ 3 ∣ multiple ∧ 2 ^ 64 - 16 ≤ multiple} (2 ^ 64 - 16))
    ∧ 33 + 32 < UInt64.size ∧ Arithmetic.maskUp 33 32 = .ok (32 * wordCount 33)
      ∧ (LayoutTable.blank .word {}).calculate (.flags (.replicate 33 { name := "flag" })) = .ok ⟨8, 4⟩
      ∧ PacksFlags 33 8 (wordCount 33) := by
  have room : 2 ^ 64 - 16 + 2 ^ 3 < UInt64.size := by decide
  have isMultiple : Arithmetic.maskUp (2 ^ 64 - 16) (2 ^ 3) = .ok (2 ^ 64 - 16) := by decide +kernel
  obtain ⟨rounds, -, -, packs⟩ := maskUp_packsFlags (2 ^ 64 - 16) 3 (.blank .word {})
    (.replicate 33 { name := "flag" })
  obtain ⟨multiple, rounded, least⟩ := rounds room
  cases rounded.symm.trans isMultiple
  have isExtent : (LayoutTable.blank .word {}).calculate (.flags (.replicate 33 { name := "flag" }))
      = .ok ⟨8, 4⟩ := by decide +kernel
  obtain ⟨counted, extent, same, packed⟩ := packs rfl (by decide)
  cases same.symm.trans isExtent
  exact ⟨⟨room, isMultiple, least⟩, by decide, counted, isExtent, packed⟩

/-! ### The last multiple -/

/-- **A multiple is refused although it is a word.** The last multiple of eight among the words is the
least one that is not below itself, and less than eight is added to it before the mask, but its sum with
eight is no word. So the tuple of a `u64` and sixty pairs, which ends there, has no layout in words. -/
theorem exists_multiple_refused :
    2 ^ 64 - 8 + 2 ^ 3 - 1 < UInt64.size
      ∧ IsLeast {multiple | 2 ^ 3 ∣ multiple ∧ 2 ^ 64 - 8 ≤ multiple} (2 ^ 64 - 8)
      ∧ Arithmetic.maskUp (2 ^ 64 - 8) (2 ^ 3) = .error .overflow
      ∧ (Graph.Pairs.graph 60 [.primitive .u64 :: Graph.Pairs.references 60]).IsRead
      ∧ (∃ exact, LayoutTable.ofGraph .exact
            (Graph.Pairs.graph 60 [.primitive .u64 :: Graph.Pairs.references 60]) = .ok exact
          ∧ exact.extentOfId ⟨60⟩ = ⟨2 ^ 64 - 8, 8⟩)
      ∧ (Graph.Pairs.graph 60 [.primitive .u64 :: Graph.Pairs.references 60]).layout
        = .error .overflow := by
  have isMultiple : roundUp (2 ^ 64 - 8) (2 ^ 3) = 2 ^ 64 - 8 := by decide
  have inside : ∀ types ∈ [.primitive .u64 :: Graph.Pairs.references 60],
      ∀ id, TypeRef.defined id ∈ types → id.index < 60 := by
    intro types isTuple id member
    rw [List.mem_singleton.mp isTuple, List.mem_cons] at member
    rcases member with isPrimitive | isPair
    · cases isPrimitive
    · exact Graph.Pairs.lt_of_mem_references isPair
  have extent : (LayoutTable.ofGraph .exact
      (Graph.Pairs.graph 60 [.primitive .u64 :: Graph.Pairs.references 60])).map
        (fun exact => exact.extentOfId ⟨60⟩) = .ok ⟨2 ^ 64 - 8, 8⟩ := by decide +kernel
  have inWords : (Graph.Pairs.graph 60 [.primitive .u64 :: Graph.Pairs.references 60]).layout.map
      LayoutTable.extents = .error .overflow := by decide +kernel
  exact ⟨by decide, isMultiple ▸ isLeast_roundUp _ (by decide), by decide +kernel,
    Graph.Pairs.isRead inside (by decide), Success.map_eq_ok_iff.mp extent,
    Success.map_eq_error_iff.mp inWords⟩

end WitGraph
