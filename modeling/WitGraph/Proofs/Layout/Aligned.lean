/-
**Layouts are aligned.**

Whatever the types of a graph are, the entries of its layout have one of the alignments 1, 2, 4 and 8
and sizes that are multiples of them, at every step of filling it in: a type on a circle may be laid
out from the extent of nothing, but that is aligned as well. So values of any type stay aligned when
they stand one after another in memory. This holds in natural numbers, and in words as far as the
layout comes there.

* `isAligned_calculate`: from an aligned table, a kind has an aligned extent that is at least as aligned
  as its parts;
* `Aligned.enter`, `Aligned.foldlM`: one step and several steps of filling in keep a table aligned.
-/

import WitGraph.Proofs.Document.WellLinked
import WitGraph.Proofs.Layout.Canonical

namespace WitGraph

/-! ### Extents -/

namespace Extent

variable {extent : Extent}

/-- The divisors of eight are the alignments in use. -/
theorem isAligned_iff : extent.IsAligned ↔ extent.align ∈ [1, 2, 4, 8] ∧ extent.align ∣ extent.size := by
  have small : ∀ align < 9, align ∣ 8 ↔ align ∈ [1, 2, 4, 8] := by decide
  constructor
  · rintro ⟨divides, multiple⟩
    have below : extent.align < 9 := Nat.lt_succ_of_le (Nat.le_of_dvd (by decide) divides)
    exact ⟨(small _ below).mp divides, multiple⟩
  · rintro ⟨listed, multiple⟩
    have each : ∀ align ∈ [1, 2, 4, 8], align ∣ 8 := by decide
    exact ⟨each _ listed, multiple⟩

theorem isAligned_empty : empty.IsAligned := ⟨Nat.one_dvd 8, Nat.one_dvd 0⟩

end Extent

namespace CanonicalAbi

theorem le_align {extents : List Extent} {extent : Extent} (member : extent ∈ extents) :
    extent.align ≤ align extents := by
  induction extents with
  | nil => cases member
  | cons first rest ih =>
    rcases List.mem_cons.mp member with rfl | inRest
    · exact Nat.le_max_left _ _
    · exact Nat.le_trans (ih inRest) (Nat.le_max_right _ _)

variable {extentOf : TypeRef → Extent} {kind : TypeKind}

/-- The extent of a kind with aligned parts is aligned. -/
theorem isAligned_extent (aligned : ∀ type ∈ kind.parts, (extentOf type).IsAligned) :
    (extent extentOf kind).IsAligned := by
  have parts : ∀ extent ∈ kind.parts.map extentOf, extent.IsAligned := by
    intro extent member
    obtain ⟨type, isPart, rfl⟩ := List.mem_map.mp member
    exact aligned type isPart
  cases kind with
  | synonym target => exact aligned target (List.mem_singleton_self target)
  | record | tuple => exact isAligned_record parts
  | variant | enum | option | result => exact isAligned_variant _ parts
  | flags labels => exact isAligned_flags labels.length
  | list _ => exact ⟨(by decide : 4 ∣ 8), (by decide : 4 ∣ 8)⟩
  | _ => exact ⟨(by decide : 4 ∣ 8), Nat.dvd_refl 4⟩

/-- A kind is at least as aligned as its parts. -/
theorem align_le_extent {type : TypeRef} (isPart : type ∈ kind.parts) :
    (extentOf type).align ≤ (extent extentOf kind).align := by
  have listed : extentOf type ∈ kind.parts.map extentOf := List.mem_map_of_mem isPart
  cases kind with
  | synonym target => rw [List.mem_singleton.mp isPart]; rfl
  | record | tuple => exact le_align listed
  | variant | enum | option | result => exact Nat.le_trans (le_align listed) (Nat.le_max_right _ _)
  | _ => cases isPart

end CanonicalAbi

/-! ### Kinds -/

namespace LayoutTable

variable {graph : Graph} {arithmetic : Arithmetic} {within : Nat → Bool} {table after : LayoutTable}
  {kind : TypeKind} {extent : Extent} {id : TypeId}

/-- With aligned entries, every type is aligned, a primitive one or one without an entry as well. -/
theorem isAligned_extent (aligned : ∀ extent ∈ table.extents, extent.IsAligned) (type : TypeRef) :
    (table.extent type).IsAligned := by
  cases type with
  | primitive type => exact Extent.isAligned_ofPrimitive type
  | defined id =>
    show ((table.extents[id.index]?).getD .empty).IsAligned
    cases found : table.extents[id.index]? with
    | none => exact Extent.isAligned_empty
    | some extent => exact aligned extent (Array.mem_of_getElem? found)

theorem isAligned_extents (aligned : ∀ extent ∈ table.extents, extent.IsAligned)
    (types : List TypeRef) : ∀ extent ∈ types.map table.extent, extent.IsAligned := by
  intro extent member
  obtain ⟨type, -, rfl⟩ := List.mem_map.mp member
  exact isAligned_extent aligned type

/-- On an aligned table, a kind has its canonical extent if it has one at all. -/
theorem eq_of_calculate (checks : table.arithmetic.Checks within)
    (aligned : ∀ extent ∈ table.extents, extent.IsAligned) (isExtent : table.calculate kind = .ok extent) :
    CanonicalAbi.extent table.extent kind = extent := by
  have known : kind ≠ .unknown := by
    rintro rfl
    cases isExtent
  rw [calculate_eq checks (fun type _ => isAligned_extent aligned type) known] at isExtent
  exact eq_of_guarded isExtent

/-- **The extent of a kind is aligned** if it is computed from aligned entries, and the kind is at least
as aligned as its parts. -/
theorem isAligned_calculate (checks : table.arithmetic.Checks within)
    (aligned : ∀ extent ∈ table.extents, extent.IsAligned) (isExtent : table.calculate kind = .ok extent) :
    extent.IsAligned ∧ ∀ type ∈ kind.parts, (table.extent type).align ≤ extent.align := by
  rw [← eq_of_calculate checks aligned isExtent]
  exact ⟨CanonicalAbi.isAligned_extent fun type _ => isAligned_extent aligned type,
    fun _ => CanonicalAbi.align_le_extent⟩

/-! ### Steps -/

/-- The table has an aligned entry for each type. -/
structure Aligned (graph : Graph) (arithmetic : Arithmetic) (table : LayoutTable) : Prop where
  arithmetic : table.arithmetic = arithmetic
  size : table.extents.size = graph.types.size
  aligned : ∀ extent ∈ table.extents, extent.IsAligned

theorem aligned_blank (graph : Graph) (arithmetic : Arithmetic) :
    Aligned graph arithmetic (blank arithmetic graph) where
  arithmetic := rfl
  size := Array.size_replicate
  aligned extent member := by
    rw [Array.eq_of_mem_replicate member]
    exact Extent.isAligned_empty

/-- **Filling in one type keeps a table aligned.** -/
theorem Aligned.enter (checks : arithmetic.Checks within) (before : Aligned graph arithmetic table)
    (isAfter : LayoutTable.enter graph table id = .ok after) : Aligned graph arithmetic after := by
  rcases enter_cases isAfter with ⟨-, rfl⟩ | ⟨kind, extent, -, isExtent, rfl⟩
  · exact before
  · -- the new entry may have been computed from entries that are not final, but these are aligned
    refine ⟨before.arithmetic, (Array.size_setIfInBounds ..).trans before.size, fun other member => ?_⟩
    rcases Array.mem_or_eq_of_mem_setIfInBounds member with isBefore | rfl
    · exact before.aligned other isBefore
    · exact (isAligned_calculate (before.arithmetic ▸ checks) before.aligned isExtent).1

/-- Filling in types one after another keeps a table aligned. -/
theorem Aligned.foldlM (checks : arithmetic.Checks within) {ids : List TypeId}
    (before : Aligned graph arithmetic table)
    (isAfter : ids.foldlM (LayoutTable.enter graph) table = .ok after) :
    Aligned graph arithmetic after := by
  induction ids generalizing table with
  | nil =>
    cases isAfter
    exact before
  | cons first rest ih =>
    rw [List.foldlM_cons] at isAfter
    obtain ⟨next, isNext, isAfter⟩ := Success.bind_eq_ok_iff.mp isAfter
    exact ih (before.enter checks isNext) isAfter

/-- The layout of any graph is aligned, if it has one. -/
theorem aligned_ofGraph (checks : arithmetic.Checks within)
    (filled : ofGraph arithmetic graph = .ok table) : Aligned graph arithmetic table :=
  (aligned_blank graph arithmetic).foldlM checks filled

end LayoutTable

namespace Graph

variable {graph : Graph}

/-- **The layout of a graph is aligned at every step**, in natural numbers and in words, and so is the
extent of any known kind that is computed from aligned entries. In natural numbers no step fails. -/
theorem layout_isAligned (isRead : graph.IsRead) {arithmetic : Arithmetic}
    (either : arithmetic = .exact ∨ arithmetic = .word) :
    (∀ done rest, graph.typeOrder = done ++ rest →
      (arithmetic = .exact →
        ∃ table, done.foldlM (LayoutTable.enter graph) (.blank arithmetic graph) = .ok table)
      ∧ ∀ table, done.foldlM (LayoutTable.enter graph) (.blank arithmetic graph) = .ok table →
        rest.foldlM (LayoutTable.enter graph) table = LayoutTable.ofGraph arithmetic graph
        ∧ table.extents.size = graph.types.size
        ∧ ∀ extent ∈ table.extents, extent.align ∈ [1, 2, 4, 8] ∧ extent.align ∣ extent.size)
    ∧ ∀ table : LayoutTable, table.arithmetic = arithmetic →
        (∀ extent ∈ table.extents, extent.align ∈ [1, 2, 4, 8] ∧ extent.align ∣ extent.size) →
        ∀ kind ≠ .unknown, (arithmetic = .exact → ∃ extent, table.calculate kind = .ok extent)
          ∧ ∀ extent, table.calculate kind = .ok extent →
            extent.align ∈ [1, 2, 4, 8] ∧ extent.align ∣ extent.size
              ∧ ∀ type ∈ kind.parts, (table.extent type).align ≤ extent.align := by
  obtain ⟨within, checks⟩ := Arithmetic.exists_checks either
  simp only [← Extent.isAligned_iff]
  constructor
  · intro done rest split
    refine ⟨?_, fun table isTable => ?_⟩
    · rintro rfl
      exact LayoutTable.exists_foldlM_enter (wellLinked_of_isRead isRead).known rfl done
    · have aligned := (LayoutTable.aligned_blank graph arithmetic).foldlM checks isTable
      refine ⟨?_, aligned.size, aligned.aligned⟩
      rw [LayoutTable.ofGraph, split, List.foldlM_append, isTable]
      rfl
  · intro table inTable aligned kind known
    refine ⟨?_, fun extent isExtent => ?_⟩
    · rintro rfl
      exact LayoutTable.exists_calculate inTable known
    · obtain ⟨isAligned, parts⟩ := LayoutTable.isAligned_calculate (inTable ▸ checks) aligned isExtent
      obtain ⟨listed, multiple⟩ := Extent.isAligned_iff.mp isAligned
      exact ⟨listed, multiple, parts⟩

end Graph

/-! ### Types in a circle -/

namespace Graph

namespace Ring

/-- The lines of a document with a record and a tuple that contain each other. -/
def lines : List String := [
  "\x7b\"types\":[\x7b\"kind\":\x7b\"record\":\x7b\"fields\":[",
  "\x7b\"name\":\"x\",\"type\":\"u8\"\x7d,\x7b\"name\":\"y\",\"type\":1\x7d]\x7d\x7d\x7d,",
  "\x7b\"kind\":\x7b\"tuple\":\x7b\"types\":[\"u64\",0]\x7d\x7d\x7d]\x7d"]

/-- The graph that the document describes. -/
def graph : Graph where
  types := #[
    { kind := .record [⟨"x", .primitive .u8, {}⟩, ⟨"y", .defined ⟨1⟩, {}⟩] },
    { kind := .tuple [.primitive .u64, .defined ⟨0⟩] }]

theorem accepted : ofText ("\n".intercalate lines) = .ok graph := by
  rw [ofText_intercalate]
  decide +kernel

theorem onCircle_record : graph.OnCircle ⟨0⟩ := by
  have down : (⟨1⟩ : TypeId) ∈ graph.directIds ⟨0⟩ := List.mem_singleton_self _
  have back : (⟨0⟩ : TypeId) ∈ graph.directIds ⟨1⟩ := List.mem_singleton_self _
  exact .tail (.single down) back

end Ring

/-- The tuple is laid out before the record that it contains, and then the record. Both steps are
aligned, and so is a pair of the two. -/
theorem layout_isAligned_ring :
    Ring.graph.IsRead ∧ Ring.graph.OnCircle ⟨0⟩ ∧ Ring.graph.typeOrder = [⟨1⟩] ++ [⟨0⟩]
      ∧ ∃ table, [⟨1⟩].foldlM (LayoutTable.enter Ring.graph) (.blank .exact Ring.graph) = .ok table
        ∧ (∀ extent ∈ table.extents, extent.align ∈ [1, 2, 4, 8] ∧ extent.align ∣ extent.size)
        ∧ ∃ extent, table.calculate (.tuple [.defined ⟨0⟩, .defined ⟨1⟩]) = .ok extent
          ∧ extent.align ∈ [1, 2, 4, 8] ∧ extent.align ∣ extent.size
          ∧ (table.extentOfId ⟨1⟩).align ≤ extent.align := by
  have isRead : Ring.graph.IsRead := ⟨_, Ring.accepted⟩
  have order : Ring.graph.typeOrder = [⟨1⟩] ++ [⟨0⟩] := by decide +kernel
  obtain ⟨steps, kinds⟩ := layout_isAligned isRead (Or.inl rfl)
  obtain ⟨goesOn, each⟩ := steps [⟨1⟩] [⟨0⟩] order
  obtain ⟨table, isTable⟩ := goesOn rfl
  obtain ⟨-, -, aligned⟩ := each table isTable
  have inNumbers : table.arithmetic = .exact := (LayoutTable.shape_foldlM isTable).1
  obtain ⟨hasExtent, isAligned⟩ :=
    kinds table inNumbers aligned (.tuple [.defined ⟨0⟩, .defined ⟨1⟩]) (fun same => nomatch same)
  obtain ⟨extent, isExtent⟩ := hasExtent rfl
  obtain ⟨listed, multiple, parts⟩ := isAligned extent isExtent
  have part := parts (.defined ⟨1⟩) (List.mem_cons_of_mem _ (List.mem_singleton_self _))
  exact ⟨isRead, Ring.onCircle_record, order, table, isTable, aligned, extent, isExtent, listed,
    multiple, part⟩

example : Ring.graph.layout.map LayoutTable.extents = .ok #[⟨16, 8⟩, ⟨8, 8⟩] := by
  decide +kernel

end Graph

end WitGraph
