/-
**Where the fields of a record stand.**

The offsets of fields and the extent of a record are computed apart from each other. `PlacesFields` says
what both have to be: every field stands at the least multiple of its alignment that is not before the
end of the previous field, the first one at zero, and the record ends at the least multiple of its own
alignment that is not before the end of the last field. So fields are aligned and do not overlap.

Both computations follow `CanonicalAbi.endFrom`: a field stands at the end of the fields before it,
rounded up (`getElem?_offsetsFrom`). The offsets take no other sums than the record, so that in words there
are offsets wherever there is a record.
-/

import Mathlib.Order.Bounds.Basic
import WitGraph.Proofs.Layout.Aligned

namespace WitGraph

/-- Where the fields of a record stand, and the extent of the whole. -/
structure PlacesFields (fields : List Extent) (offsets : List Nat) (whole : Extent) : Prop where
  /-- There is one offset for each field. -/
  length : offsets.length = fields.length
  first : ∀ _ : 0 < fields.length, offsets[0] = 0
  /-- A field stands at the least multiple of its alignment that is not before the end of the previous
  one. -/
  next : ∀ (position : Nat) (_ : position + 1 < fields.length),
    IsLeast {offset | fields[position + 1].align ∣ offset
      ∧ offsets[position] + fields[position].size ≤ offset} offsets[position + 1]
  aligned : ∀ (position : Nat) (_ : position < fields.length), fields[position].align ∣ offsets[position]
  /-- A field ends before any later one begins. -/
  apart : ∀ (earlier later : Nat) (_ : earlier < later) (_ : later < fields.length),
    offsets[earlier] + fields[earlier].size ≤ offsets[later]
  align : IsGreatest {align | align = 1 ∨ ∃ field ∈ fields, align = field.align} whole.align
  /-- The size is the least multiple of the alignment that is not before the end of the last field. -/
  size : IsLeast {size | whole.align ∣ size ∧ ∀ (last : Nat) (_ : last < fields.length),
    last + 1 = fields.length → offsets[last] + fields[last].size ≤ size} whole.size

/-! ### Ends of fields -/

theorem isLeast_roundUp (value : Nat) {align : Nat} (positive : 0 < align) :
    IsLeast {multiple | align ∣ multiple ∧ value ≤ multiple} (roundUp value align) :=
  ⟨⟨dvd_roundUp value align, le_roundUp value positive⟩,
    fun _ member => roundUp_isLeast positive member.1 member.2⟩

theorem Extent.IsAligned.positive {extent : Extent} (aligned : extent.IsAligned) : 0 < extent.align :=
  Nat.pos_of_dvd_of_pos aligned.align (by decide)

namespace CanonicalAbi

variable {fields : List Extent}

theorem endFrom_append (start : Nat) (first second : List Extent) :
    endFrom start (first ++ second) = endFrom (endFrom start first) second := by
  induction first generalizing start with
  | nil => rfl
  | cons field rest ih => exact ih _

/-- The end of a field, for the end of those before it. -/
theorem endFrom_take_succ (start : Nat) {position : Nat} (inside : position < fields.length) :
    endFrom start (fields.take (position + 1))
      = roundUp (endFrom start (fields.take position)) fields[position].align
        + fields[position].size := by
  rw [List.take_succ_eq_append_getElem inside, endFrom_append]
  rfl

theorem le_endFrom (start : Nat) (aligned : ∀ field ∈ fields, field.IsAligned) :
    start ≤ endFrom start fields := by
  induction fields generalizing start with
  | nil => exact Nat.le_refl start
  | cons first rest ih =>
    calc start
        ≤ roundUp start first.align := le_roundUp start (aligned first (List.mem_cons_self ..)).positive
      _ ≤ roundUp start first.align + first.size := Nat.le_add_right _ _
      _ ≤ endFrom (roundUp start first.align + first.size) rest :=
        ih _ fun field inRest => aligned field (List.mem_cons_of_mem _ inRest)

/-- Later fields do not end before earlier ones. -/
theorem endFrom_take_mono (start : Nat) (aligned : ∀ field ∈ fields, field.IsAligned) {fewer more : Nat}
    (le : fewer ≤ more) : endFrom start (fields.take fewer) ≤ endFrom start (fields.take more) := by
  have split : fields.take more = fields.take fewer ++ (fields.take more).drop fewer := by
    have parts := List.take_append_drop fewer (fields.take more)
    rw [List.take_take, Nat.min_eq_left le] at parts
    exact parts.symm
  rw [split, endFrom_append]
  exact le_endFrom _ fun field member =>
    aligned field (List.mem_of_mem_take (List.mem_of_mem_drop member))

/-- The end of all fields is the end of the last one; without fields, it is zero. -/
theorem endFrom_le_iff {size : Nat} : endFrom 0 fields ≤ size
    ↔ ∀ last, last + 1 = fields.length → endFrom 0 (fields.take (last + 1)) ≤ size := by
  constructor
  · intro fits last isLast
    rwa [isLast, List.take_length]
  · intro fits
    cases count : fields.length with
    | zero =>
      rw [List.eq_nil_of_length_eq_zero count]
      exact Nat.zero_le size
    | succ last =>
      have isEnd := fits last count.symm
      rwa [← count, List.take_length] at isEnd

theorem isGreatest_align (fields : List Extent) :
    IsGreatest {greatest | greatest = 1 ∨ ∃ field ∈ fields, greatest = field.align} (align fields) := by
  constructor
  · induction fields with
    | nil => exact Or.inl rfl
    | cons first rest ih =>
      show max first.align (align rest) = 1
        ∨ ∃ field ∈ first :: rest, max first.align (align rest) = field.align
      rcases Nat.le_total first.align (align rest) with less | greater
      · rw [Nat.max_eq_right less]
        rcases ih with isOne | ⟨field, inRest, same⟩
        · exact Or.inl isOne
        · exact Or.inr ⟨field, List.mem_cons_of_mem _ inRest, same⟩
      · rw [Nat.max_eq_left greater]
        exact Or.inr ⟨first, List.mem_cons_self .., rfl⟩
  · rintro _ (rfl | ⟨field, member, rfl⟩)
    · exact one_le_align fields
    · exact le_align member

end CanonicalAbi

/-! ### Offsets -/

namespace CanonicalAbi

variable {fields : List Extent}

/-- The offsets of fields that are placed one after another from `start` on. -/
def offsetsFrom (start : Nat) : List Extent → List Nat
  | [] => []
  | first :: rest =>
    roundUp start first.align :: offsetsFrom (roundUp start first.align + first.size) rest

theorem length_offsetsFrom (start : Nat) (fields : List Extent) :
    (offsetsFrom start fields).length = fields.length := by
  induction fields generalizing start with
  | nil => rfl
  | cons first rest ih => exact congrArg Nat.succ (ih _)

/-- **A field stands at the end of the fields before it**, rounded up to its alignment. -/
theorem getElem?_offsetsFrom (start : Nat) {position : Nat} (inside : position < fields.length) :
    (offsetsFrom start fields)[position]? =
      some (roundUp (endFrom start (fields.take position)) fields[position].align) := by
  induction fields generalizing start position with
  | nil => exact absurd inside (Nat.not_lt_zero _)
  | cons first rest ih =>
    cases position with
    | zero => rfl
    | succ position => exact ih _ (Nat.lt_of_succ_lt_succ inside)

/-- **Offsets and extent of a record agree.** -/
theorem placesFields_record (aligned : ∀ field ∈ fields, field.IsAligned) :
    PlacesFields fields (offsetsFrom 0 fields) (record fields) := by
  have length : (offsetsFrom 0 fields).length = fields.length := length_offsetsFrom 0 fields
  have offset (position : Nat) (inside : position < fields.length) :
      (offsetsFrom 0 fields)[position]
        = roundUp (endFrom 0 (fields.take position)) fields[position].align :=
    (List.getElem?_eq_some_iff.mp (getElem?_offsetsFrom 0 inside)).2
  have fieldEnd (position : Nat) (inside : position < fields.length) :
      (offsetsFrom 0 fields)[position] + fields[position].size
        = endFrom 0 (fields.take (position + 1)) := by
    rw [offset position inside, endFrom_take_succ 0 inside]
  have positive (position : Nat) (inside : position < fields.length) : 0 < fields[position].align :=
    (aligned _ (List.getElem_mem inside)).positive
  have lastEnd (size : Nat) : (∀ (last : Nat) (_ : last < fields.length), last + 1 = fields.length →
      (offsetsFrom 0 fields)[last] + fields[last].size ≤ size) ↔ endFrom 0 fields ≤ size := by
    refine Iff.trans ⟨fun fits last isLast => ?_, fun fits last inside isLast => ?_⟩ endFrom_le_iff.symm
    · have inside : last < fields.length := isLast ▸ Nat.lt_succ_self last
      exact fieldEnd last inside ▸ fits last inside isLast
    · exact (fieldEnd last inside).symm ▸ fits last isLast
  exact {
    length
    first := fun present => by
      have least := roundUp_isLeast (positive 0 present) (Nat.dvd_zero _) (Nat.le_refl 0)
      rw [offset 0 present]
      exact Nat.eq_zero_of_le_zero least
    next := fun position inside => by
      rw [offset (position + 1) inside, fieldEnd position (Nat.lt_of_succ_lt inside)]
      exact isLeast_roundUp _ (positive (position + 1) inside)
    aligned := fun position inside => by
      rw [offset position inside]
      exact dvd_roundUp _ _
    apart := fun earlier later before inside => by
      rw [offset later inside, fieldEnd earlier (Nat.lt_trans before inside)]
      calc endFrom 0 (fields.take (earlier + 1))
          ≤ endFrom 0 (fields.take later) := endFrom_take_mono 0 aligned before
        _ ≤ roundUp (endFrom 0 (fields.take later)) fields[later].align :=
            le_roundUp _ (positive later inside)
    align := isGreatest_align fields
    size := by
      simp only [lastEnd]
      exact isLeast_roundUp _ (Nat.lt_of_lt_of_le Nat.one_pos (one_le_align fields)) }

end CanonicalAbi

/-! ### Sums in words -/

namespace CanonicalAbi

variable {fields : List Extent} {sum : Nat}

theorem le_of_mem_fieldSums {whole : Nat} (start : Nat) (aligned : ∀ extent ∈ fields, extent.IsAligned)
    (within : ∀ extent ∈ fields, extent.align ≤ whole) (member : sum ∈ fieldSums start fields) :
    sum ≤ endFrom start fields + whole := by
  induction fields generalizing start with
  | nil => cases member
  | cons first rest ih =>
    have alignedRest : ∀ extent ∈ rest, extent.IsAligned :=
      fun extent inRest => aligned extent (List.mem_cons_of_mem _ inRest)
    rcases List.mem_cons.mp member with rfl | later
    · exact Nat.add_le_add (le_endFrom start aligned) (within first (List.mem_cons_self ..))
    rcases List.mem_cons.mp later with rfl | later
    · exact Nat.le_trans (le_endFrom _ alignedRest) (Nat.le_add_right _ _)
    · exact ih _ alignedRest (fun extent inRest => within extent (List.mem_cons_of_mem _ inRest)) later

theorem last_mem_recordSums (fields : List Extent) : endFrom 0 fields + align fields ∈ recordSums fields :=
  List.mem_append_right _ (List.mem_singleton_self _)

/-- The sum for rounding up a record is the largest one. -/
theorem isWord_recordSums_iff (aligned : ∀ field ∈ fields, field.IsAligned) :
    (∀ sum ∈ recordSums fields, Arithmetic.isWord sum)
      ↔ endFrom 0 fields + align fields < UInt64.size := by
  constructor
  · exact fun sums => Arithmetic.isWord_iff.mp (sums _ (last_mem_recordSums fields))
  · intro room sum member
    have below : sum ≤ endFrom 0 fields + align fields := by
      rcases List.mem_append.mp member with isField | isLast
      · exact le_of_mem_fieldSums 0 aligned (fun _ => le_align) isField
      · exact (List.mem_singleton.mp isLast).le
    exact Arithmetic.isWord_iff.mpr (Nat.lt_of_le_of_lt below room)

end CanonicalAbi

section Offsets

variable {arithmetic : Arithmetic} {within : Nat → Bool} {fields : List Extent}
  (checks : arithmetic.Checks within) (aligned : ∀ field ∈ fields, field.IsAligned)

include checks aligned

theorem Extent.offsetsFrom_eq (start : Nat) : offsetsFrom arithmetic start fields
    = guarded within (CanonicalAbi.fieldSums start fields) (CanonicalAbi.offsetsFrom start fields) := by
  induction fields generalizing start with
  | nil => rfl
  | cons first rest ih =>
    have others := ih (fun field inRest => aligned field (List.mem_cons_of_mem _ inRest))
      (roundUp start first.align + first.size)
    rw [offsetsFrom, alignUp_eq checks _ (aligned first (List.mem_cons_self ..)).align]
    refine guarded_bind ?_
    rw [checks.add]
    refine guarded_bind ?_
    rw [others]
    exact guarded_map _

/-- The sums for the offsets are among those for the record. -/
theorem Extent.offsets_eq_ok (fits : ∀ sum ∈ CanonicalAbi.recordSums fields, within sum) :
    offsets arithmetic fields = .ok (CanonicalAbi.offsetsFrom 0 fields) := by
  rw [offsets, offsetsFrom_eq checks aligned]
  exact guarded_of_all fun sum member => fits sum (List.mem_append_left _ member)

end Offsets

namespace LayoutTable

/-- **Offsets and extents of records agree** on any layout in natural numbers. In words they are the same
if the sum for rounding up the end of the last field is a word; otherwise the record overflows. -/
theorem placesFields_ofGraph (graph : Graph) (types : List TypeRef) :
    (∀ table, ofGraph .exact graph = .ok table →
      ∃ offsets whole, Extent.offsets table.arithmetic (types.map table.extent) = .ok offsets
        ∧ Extent.record table.arithmetic (types.map table.extent) = .ok whole
        ∧ PlacesFields (types.map table.extent) offsets whole)
    ∧ ∀ table, graph.layout = .ok table →
      ∃ offsets whole, PlacesFields (types.map table.extent) offsets whole
        ∧ (CanonicalAbi.endFrom 0 (types.map table.extent) + whole.align < UInt64.size →
            Extent.offsets table.arithmetic (types.map table.extent) = .ok offsets
              ∧ Extent.record table.arithmetic (types.map table.extent) = .ok whole)
        ∧ (UInt64.size ≤ CanonicalAbi.endFrom 0 (types.map table.extent) + whole.align →
            Extent.record table.arithmetic (types.map table.extent) = .error .overflow) := by
  constructor
  · intro table filled
    obtain ⟨inNumbers, -, aligned⟩ := aligned_ofGraph Arithmetic.checks_exact filled
    have checks : table.arithmetic.Checks fun _ => true := inNumbers ▸ Arithmetic.checks_exact
    have fields := isAligned_extents aligned types
    exact ⟨_, _, Extent.offsets_eq_ok checks fields fun _ _ => rfl,
      (Extent.record_eq checks fields).trans guarded_true, CanonicalAbi.placesFields_record fields⟩
  · intro table filled
    obtain ⟨inWords, -, aligned⟩ := aligned_ofGraph Arithmetic.checks_word filled
    have checks : table.arithmetic.Checks Arithmetic.isWord := inWords ▸ Arithmetic.checks_word
    have fields := isAligned_extents aligned types
    have isRecord := Extent.record_eq checks fields
    refine ⟨_, _, CanonicalAbi.placesFields_record fields, fun room => ?_, fun noRoom => ?_⟩
    · have fits := (CanonicalAbi.isWord_recordSums_iff fields).mpr room
      exact ⟨Extent.offsets_eq_ok checks fields fits, isRecord.trans (guarded_of_all fits)⟩
    · exact isRecord.trans (Arithmetic.guarded_of_size_le (CanonicalAbi.last_mem_recordSums _) noRoom)

end LayoutTable

/-! ### A field after a wider one -/

namespace Graph

/-- The layout of the document's graph in natural numbers. -/
def Reversed.table : LayoutTable := ⟨.exact, #[⟨24, 8⟩, ⟨8, 4⟩, ⟨16, 8⟩]⟩

/-- Three fields of which the second is more aligned than what stands before it. -/
def Reversed.fields : List TypeRef := [.primitive .u8, .defined ⟨2⟩, .primitive .u16]

/-- The pair stands at eight, which is a multiple of its alignment, and the record ends at a multiple
of eight. -/
theorem placesFields_ofGraph_reversed :
    LayoutTable.ofGraph .exact Reversed.graph = .ok Reversed.table
      ∧ Reversed.fields.map Reversed.table.extent = [⟨1, 1⟩, ⟨16, 8⟩, ⟨2, 2⟩]
      ∧ PlacesFields [⟨1, 1⟩, ⟨16, 8⟩, ⟨2, 2⟩] [0, 8, 24] ⟨32, 8⟩ := by
  have filled : LayoutTable.ofGraph .exact Reversed.graph = .ok Reversed.table := rfl
  have extents : Reversed.fields.map Reversed.table.extent = [⟨1, 1⟩, ⟨16, 8⟩, ⟨2, 2⟩] := rfl
  obtain ⟨offsets, whole, isOffsets, isWhole, placed⟩ :=
    (LayoutTable.placesFields_ofGraph Reversed.graph Reversed.fields).1 _ filled
  rw [extents] at isOffsets isWhole placed
  obtain rfl : [0, 8, 24] = offsets := Except.ok.inj isOffsets
  obtain rfl : (⟨32, 8⟩ : Extent) = whole := Except.ok.inj isWhole
  exact ⟨filled, extents, placed⟩

end Graph

end WitGraph
