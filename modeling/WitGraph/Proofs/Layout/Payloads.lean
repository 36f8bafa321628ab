/-
**Where the payloads of a variant stand.**

The offset of the payloads and the extent of the whole variant are computed apart from each other.
`PlacesPayloads` says what both have to be: the payloads stand behind the tag, at the least multiple of all
their alignments, and the variant ends at the least multiple of its own alignment behind the largest
payload.

In natural numbers this is so on any layout. In words the offset is the same, and the extent is the same if
there is room for rounding it up; a payload that leaves no such room is laid out itself, but the variant is
not (`exists_variant_overflowing`).
-/

import WitGraph.Proofs.Abi.Cases
import WitGraph.Proofs.Layout.Fields
import WitGraph.Proofs.Layout.Pairs

namespace WitGraph

/-- Where the payloads behind a tag stand, and the extent of the whole. -/
structure PlacesPayloads (tag : UnsignedInt) (payloads : List Extent) (offset : Nat) (whole : Extent) :
    Prop where
  /-- The payloads stand at the least multiple of their alignments that is not before the end of the
  tag. -/
  behindTag : IsLeast {offset | tag.bytes ≤ offset ∧ ∀ payload ∈ payloads, payload.align ∣ offset} offset
  align : IsGreatest {align | align = tag.bytes ∨ ∃ payload ∈ payloads, align = payload.align} whole.align
  /-- The size is the least multiple of the alignment that is not before the end of any payload. -/
  size : IsLeast {size | whole.align ∣ size ∧ offset ≤ size
    ∧ ∀ payload ∈ payloads, offset + payload.size ≤ size} whole.size

/-! ### Alignments of payloads -/

/-- Of two alignments, the smaller one divides the larger one. -/
theorem dvd_of_le_of_dvd_eight {first second : Nat} (firstDivides : first ∣ 8)
    (secondDivides : second ∣ 8) (le : first ≤ second) : first ∣ second := by
  obtain ⟨bits, -, rfl⟩ := (Nat.dvd_prime_pow Nat.prime_two (m := 3)).mp firstDivides
  obtain ⟨more, -, rfl⟩ := (Nat.dvd_prime_pow Nat.prime_two (m := 3)).mp secondDivides
  exact Nat.pow_dvd_pow 2 ((Nat.pow_le_pow_iff_right (by decide)).mp le)

namespace CanonicalAbi

variable {payloads : List Extent}

/-- The multiples of the greatest alignment are those of all alignments. -/
theorem align_dvd_iff (aligned : ∀ payload ∈ payloads, payload.IsAligned) {offset : Nat} :
    align payloads ∣ offset ↔ ∀ payload ∈ payloads, payload.align ∣ offset := by
  constructor
  · intro divides payload member
    have smaller : payload.align ∣ align payloads :=
      dvd_of_le_of_dvd_eight (aligned payload member).align (align_dvd aligned) (le_align member)
    exact smaller.trans divides
  · intro each
    rcases (isGreatest_align payloads).1 with isOne | ⟨payload, member, same⟩
    · rw [isOne]
      exact Nat.one_dvd offset
    · rw [same]
      exact each payload member

/-- The largest payload fits where all payloads fit. -/
theorem add_size_le_iff {offset whole : Nat} : offset + size payloads ≤ whole
    ↔ offset ≤ whole ∧ ∀ payload ∈ payloads, offset + payload.size ≤ whole := by
  induction payloads with
  | nil => simp [size]
  | cons first rest ih =>
    rw [List.forall_mem_cons, and_left_comm, ← ih]
    show offset + max first.size (size rest) ≤ whole ↔ _
    omega

theorem isGreatest_max_align (tag : Nat) (positive : 0 < tag) (payloads : List Extent) :
    IsGreatest {greatest | greatest = tag ∨ ∃ payload ∈ payloads, greatest = payload.align}
      (max tag (align payloads)) := by
  obtain ⟨reached, above⟩ := isGreatest_align payloads
  constructor
  · by_cases less : tag ≤ align payloads
    · rw [Nat.max_eq_right less]
      -- an alignment of one is that of a tag of one byte
      exact reached.imp_left fun isOne => by omega
    · exact Or.inl (Nat.max_eq_left (Nat.le_of_not_le less))
  · rintro _ (rfl | isPayload)
    · exact Nat.le_max_left _ _
    · exact Nat.le_trans (above (Or.inr isPayload)) (Nat.le_max_right _ _)

theorem tagBytes_pos (cases : Nat) : 0 < tagBytes cases :=
  Nat.pos_of_dvd_of_pos (tagBytes_dvd cases) (by decide)

/-- **The canonical extent of a variant holds its payloads** behind the tag. -/
theorem placesPayloads_variant (cases : Nat) (aligned : ∀ payload ∈ payloads, payload.IsAligned) :
    PlacesPayloads (.ofCases cases) payloads (roundUp (tagBytes cases) (align payloads))
      (variant cases payloads) where
  behindTag := by
    simp only [UnsignedInt.bytes_ofCases, and_comm (a := tagBytes cases ≤ _), ← align_dvd_iff aligned]
    exact isLeast_roundUp _ (Nat.lt_of_lt_of_le Nat.one_pos (one_le_align payloads))
  align := by
    rw [UnsignedInt.bytes_ofCases]
    exact isGreatest_max_align _ (tagBytes_pos cases) payloads
  size := by
    simp only [← add_size_le_iff]
    exact isLeast_roundUp _ (isAligned_variant cases aligned).positive

end CanonicalAbi

/-! ### Sums in words -/

namespace CanonicalAbi

variable {payloads : List Extent}

/-- The sum for rounding up a variant is the largest one. -/
theorem isWord_variantSums_iff (cases : Nat) : (∀ sum ∈ variantSums cases payloads, Arithmetic.isWord sum)
    ↔ roundUp (tagBytes cases) (align payloads) + size payloads + max (tagBytes cases) (align payloads)
      < UInt64.size := by
  have tag : tagBytes cases ≤ roundUp (tagBytes cases) (align payloads) :=
    le_roundUp _ (Nat.lt_of_lt_of_le Nat.one_pos (one_le_align payloads))
  simp only [variantSums, List.forall_mem_cons, Arithmetic.isWord_iff]
  constructor
  · exact fun sums => sums.2.2.1
  · intro room
    exact ⟨by omega, by omega, room, fun _ member => by cases member⟩

/-- Tag and payloads are aligned to eight bytes at most, so there always is room for the offset. -/
theorem isWord_tag_add_align (cases : Nat) (aligned : ∀ payload ∈ payloads, payload.IsAligned) :
    Arithmetic.isWord (tagBytes cases + align payloads) := by
  have tag : tagBytes cases ≤ 8 := Nat.le_of_dvd (by decide) (tagBytes_dvd cases)
  have payload : align payloads ≤ 8 := Nat.le_of_dvd (by decide) (align_dvd aligned)
  have words : 16 < UInt64.size := by decide
  exact Arithmetic.isWord_iff.mpr (by omega)

end CanonicalAbi

/-! ### Layouts -/

namespace LayoutTable

variable {graph : Graph} {table : LayoutTable} {within : Nat → Bool} {kind : TypeKind}
  {cases : List (Case TypeRef)}

/-- The offset of the payloads of the cases. -/
def payloadOffset (table : LayoutTable) (cases : List (Case TypeRef)) : Except AbiFault Nat :=
  Extent.payloadOffset table.arithmetic (.ofCases cases.length) (table.payloads (cases.map Case.type))

/-- The size of the largest payload of the cases. -/
def largestPayload (table : LayoutTable) (cases : List (Case TypeRef)) : Nat :=
  (Extent.widest (table.payloads (cases.map Case.type))).size

/-- The payloads of the cases stand at the offset, in a variant of the extent. -/
def PlacesCases (table : LayoutTable) (cases : List (Case TypeRef)) (offset : Nat) (whole : Extent) :
    Prop :=
  PlacesPayloads (.ofCases cases.length) (table.payloads (cases.map Case.type)) offset whole

theorem calculate_eq_variant (isVariant : kind.despecialize = .variant cases) :
    table.calculate kind = table.calculate (.variant cases) := by
  rw [← table.calculate_despecialize, isVariant]

section Aligned

variable (checks : table.arithmetic.Checks within)
  (aligned : ∀ extent ∈ table.extents, extent.IsAligned) (cases : List (Case TypeRef))

include aligned

theorem isAligned_payloads : ∀ extent ∈ table.payloads (cases.map Case.type), extent.IsAligned :=
  isAligned_extents aligned _

/-- An aligned table places the payloads in canonical variants. -/
theorem placesCases_canonical :
    table.PlacesCases cases
      (roundUp (CanonicalAbi.tagBytes cases.length)
        (CanonicalAbi.align (table.payloads (cases.map Case.type))))
      (CanonicalAbi.variant cases.length (table.payloads (cases.map Case.type))) :=
  CanonicalAbi.placesPayloads_variant cases.length (isAligned_payloads aligned cases)

include checks

theorem payloadOffset_eq : table.payloadOffset cases
    = guarded within
        [CanonicalAbi.tagBytes cases.length
          + CanonicalAbi.align (table.payloads (cases.map Case.type))]
        (roundUp (CanonicalAbi.tagBytes cases.length)
          (CanonicalAbi.align (table.payloads (cases.map Case.type)))) :=
  Extent.payloadOffset_eq checks cases.length (isAligned_payloads aligned cases)

theorem calculate_variant_eq : table.calculate (.variant cases)
    = guarded within
        (CanonicalAbi.variantSums cases.length (table.payloads (cases.map Case.type)))
        (CanonicalAbi.variant cases.length (table.payloads (cases.map Case.type))) := by
  rw [calculate, variant, List.length_map]
  exact Extent.variant_eq checks cases.length (isAligned_payloads aligned cases)

end Aligned

end LayoutTable

namespace Graph

/-- **Payload offsets and extents of variants agree** on any layout in natural numbers, for options,
results and enums as well. In words there is the same offset on any layout, and the variant has the extent
that agrees with it if the sum for rounding it up is a word; otherwise it overflows. -/
theorem layout_placesCases {graph : Graph} {kind : TypeKind} {cases : List (Case TypeRef)}
    (isVariant : kind.despecialize = .variant cases) (few : cases.length ≤ 2 ^ 32) :
    cases.length ≤ 2 ^ (8 * (UnsignedInt.ofCases cases.length).bytes)
      ∧ (∀ table, LayoutTable.ofGraph .exact graph = .ok table →
          ∃ offset whole, table.payloadOffset cases = .ok offset ∧ table.calculate kind = .ok whole
            ∧ table.calculate (.variant cases) = .ok whole ∧ table.PlacesCases cases offset whole)
      ∧ ∀ table, graph.layout = .ok table →
          ∃ offset whole, table.payloadOffset cases = .ok offset ∧ table.PlacesCases cases offset whole
            ∧ table.calculate (.variant cases) = table.calculate kind
            ∧ (offset + table.largestPayload cases + whole.align < UInt64.size →
                table.calculate kind = .ok whole)
            ∧ (UInt64.size ≤ offset + table.largestPayload cases + whole.align →
                table.calculate kind = .error .overflow) := by
  refine ⟨UnsignedInt.le_two_pow_bytes_ofCases few, fun table filled => ?_, fun table filled => ?_⟩
  · obtain ⟨inNumbers, -, aligned⟩ := LayoutTable.aligned_ofGraph Arithmetic.checks_exact filled
    have checks : table.arithmetic.Checks fun _ => true := inNumbers ▸ Arithmetic.checks_exact
    have isWhole := (LayoutTable.calculate_variant_eq checks aligned cases).trans guarded_true
    have isOffset := (LayoutTable.payloadOffset_eq checks aligned cases).trans guarded_true
    exact ⟨_, _, isOffset, (LayoutTable.calculate_eq_variant isVariant).trans isWhole, isWhole,
      LayoutTable.placesCases_canonical aligned cases⟩
  · obtain ⟨inWords, -, aligned⟩ := LayoutTable.aligned_ofGraph Arithmetic.checks_word filled
    have checks : table.arithmetic.Checks Arithmetic.isWord := inWords ▸ Arithmetic.checks_word
    have isWhole := LayoutTable.calculate_variant_eq checks aligned cases
    have isOffset := LayoutTable.payloadOffset_eq checks aligned cases
    have same : table.calculate kind = table.calculate (.variant cases) :=
      LayoutTable.calculate_eq_variant isVariant
    have largest : table.largestPayload cases
        = CanonicalAbi.size (table.payloads (cases.map Case.type)) := by
      rw [LayoutTable.largestPayload, Extent.widest_eq]
    refine ⟨_, _, isOffset.trans (guarded_of_all fun sum member => ?_),
      LayoutTable.placesCases_canonical aligned cases, same.symm, fun room => ?_, fun noRoom => ?_⟩
    · rw [List.mem_singleton.mp member]
      exact CanonicalAbi.isWord_tag_add_align _ (LayoutTable.isAligned_payloads aligned cases)
    · rw [largest] at room
      rw [same, isWhole]
      exact guarded_of_all ((CanonicalAbi.isWord_variantSums_iff _).mpr room)
    · rw [largest] at noRoom
      rw [same, isWhole]
      exact Arithmetic.guarded_of_size_le (List.mem_of_getLast? rfl) noRoom

/-- The payloads stand at eight behind a tag of one byte, since a pair with a `u64` is among them. -/
theorem layout_placesCases_mixed :
    Reversed.mixedCases.length ≤ 2 ^ 32
      ∧ LayoutTable.ofGraph .exact Reversed.graph = .ok Reversed.table
      ∧ Reversed.table.calculate (.variant Reversed.mixedCases) = .ok ⟨24, 8⟩
      ∧ PlacesPayloads .u8 [⟨8, 4⟩, ⟨16, 8⟩, ⟨4, 4⟩] 8 ⟨24, 8⟩ := by
  have few : Reversed.mixedCases.length ≤ 2 ^ 32 := by decide
  have filled : LayoutTable.ofGraph .exact Reversed.graph = .ok Reversed.table := rfl
  have isOffset : Reversed.table.payloadOffset Reversed.mixedCases = .ok 8 := by decide
  have isWhole : Reversed.table.calculate (.variant Reversed.mixedCases) = .ok ⟨24, 8⟩ := by decide
  obtain ⟨-, inNumbers, -⟩ := layout_placesCases
    (show (.variant Reversed.mixedCases : TypeKind).despecialize = .variant Reversed.mixedCases from rfl) few
  obtain ⟨offset, whole, sameOffset, sameWhole, -, placed⟩ := inNumbers _ filled
  cases sameOffset.symm.trans isOffset
  cases sameWhole.symm.trans isWhole
  exact ⟨few, filled, isWhole, placed⟩

/-- Nothing, or the type after sixty others. -/
def Pairs.optionCases : List (Case TypeRef) :=
  [{ name := "none", type := none }, { name := "some", type := some (.defined ⟨60⟩) }]

/-- **A variant can overflow although its payload does not.** The tuple of sixty pairs is laid out, and it
would fit behind the tag of an option in a size that is a word; but there is no room for rounding up this
size, and so there is no extent. -/
theorem exists_variant_overflowing :
    (Pairs.graph 60 [Pairs.references 60]).IsRead
      ∧ (Kind.option (.defined ⟨60⟩) : TypeKind).despecialize = .variant Pairs.optionCases
      ∧ ∃ table, (Pairs.graph 60 [Pairs.references 60]).layout = .ok table
        ∧ table.extentOfId ⟨60⟩ = ⟨2 ^ 64 - 16, 8⟩
        ∧ table.payloadOffset Pairs.optionCases = .ok 8
        ∧ table.PlacesCases Pairs.optionCases 8 ⟨2 ^ 64 - 8, 8⟩
        ∧ table.calculate (.option (.defined ⟨60⟩)) = .error .overflow := by
  have inside : ∀ types ∈ [Pairs.references 60], ∀ id, TypeRef.defined id ∈ types → id.index < 60 := by
    intro types isTuple id member
    rw [List.mem_singleton.mp isTuple] at member
    exact Pairs.lt_of_mem_references member
  have laidOut : ((Pairs.graph 60 [Pairs.references 60]).layout >>= fun table =>
      pure (table.extentOfId ⟨60⟩, table.payloadOffset Pairs.optionCases,
        table.calculate (.option (.defined ⟨60⟩))))
      = .ok (⟨2 ^ 64 - 16, 8⟩, .ok 8, .error .overflow) := by decide +kernel
  obtain ⟨table, isTable, evaluated⟩ := Success.bind_return_eq_ok_iff.mp laidOut
  simp only [Prod.mk.injEq] at evaluated
  obtain ⟨extent, isOffset, overflows⟩ := evaluated
  have aligned := (LayoutTable.aligned_ofGraph Arithmetic.checks_word isTable).aligned
  have payloads : table.payloads (Pairs.optionCases.map Case.type) = [⟨2 ^ 64 - 16, 8⟩] :=
    congrArg (fun extent => [extent]) extent
  have placed := LayoutTable.placesCases_canonical aligned Pairs.optionCases
  rw [payloads] at placed
  exact ⟨Pairs.isRead inside (by decide), rfl, table, isTable, extent, isOffset, placed, overflows⟩

end Graph

end WitGraph
