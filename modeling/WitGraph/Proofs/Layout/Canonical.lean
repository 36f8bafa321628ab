/-
**Canonical extents.**

The Canonical ABI defines the size and alignment of a type by recursion on what it consists of, in
natural numbers: `CanonicalAbi.record`, `CanonicalAbi.variant` and `CanonicalAbi.flags` for one kind
each, and `Graph.HasExtent` for the types of a graph. A circular type has no such extent, a grounded
type has one (`exists_hasExtent`), and only one (`HasExtent.unique`).

Layouts are computed from the extents of the parts in the same way, whatever the arithmetic is, but for
sums that are out of its reach (`calculate_eq`, with the sums of `CanonicalAbi.sums`). So a table that
solves the layout equations has the canonical extents (`HasExtent.extent_eq`). There is such a table with
natural numbers for every graph that is read, and in words the layout is one if there is a layout at all;
both are said by `layout_isCanonical`.
-/

import WitGraph.Proofs.Document.WellLinked
import WitGraph.Proofs.Layout.Filling
import WitGraph.Proofs.Layout.Words

namespace WitGraph

/-! ### The definition -/

namespace CanonicalAbi

/-- The greatest alignment, at least one. -/
def align : List Extent → Nat
  | [] => 1
  | first :: rest => max first.align (align rest)

/-- The greatest size. -/
def size : List Extent → Nat
  | [] => 0
  | first :: rest => max first.size (size rest)

/-- The end of fields that are placed one after another from `start` on, each at the next multiple of
its alignment. -/
def endFrom (start : Nat) : List Extent → Nat
  | [] => start
  | first :: rest => endFrom (roundUp start first.align + first.size) rest

/-- The extent of a record. -/
def record (fields : List Extent) : Extent where
  size := roundUp (endFrom 0 fields) (align fields)
  align := align fields

/-- How many bytes the tag of a variant takes. -/
def tagBytes (cases : Nat) : Nat :=
  if cases ≤ 2 ^ 8 then 1 else if cases ≤ 2 ^ 16 then 2 else 4

/-- The extent of a variant. -/
def variant (cases : Nat) (payloads : List Extent) : Extent where
  size := roundUp (roundUp (tagBytes cases) (align payloads) + size payloads)
    (max (tagBytes cases) (align payloads))
  align := max (tagBytes cases) (align payloads)

/-- The extent of flags: one or two bytes, or words for 32 flags each. -/
def flags (count : Nat) : Extent :=
  if count ≤ 8 then ⟨1, 1⟩ else if count ≤ 16 then ⟨2, 2⟩ else ⟨4 * ((count + 31) / 32), 4⟩

/-- The extent of a kind, for the extents of its parts. -/
def extent (extentOf : TypeRef → Extent) (kind : TypeKind) : Extent :=
  let parts := kind.parts.map extentOf
  match kind with
  | .synonym target => extentOf target
  | .record _ | .tuple _ => record parts
  | .variant cases => variant cases.length parts
  | .enum cases => variant cases.length parts
  | .option _ | .result _ _ => variant 2 parts
  | .flags labels => flags labels.length
  | .list _ => ⟨8, 4⟩
  | _ => ⟨4, 4⟩

/-! ### Sums -/

/-- The sums for fields that are placed one after another from `start` on. -/
def fieldSums (start : Nat) : List Extent → List Nat
  | [] => []
  | first :: rest =>
    let offset := roundUp start first.align
    (start + first.align) :: (offset + first.size) :: fieldSums (offset + first.size) rest

/-- The sums for a record: those for its fields, and one for rounding up the end of the last one. -/
def recordSums (fields : List Extent) : List Nat :=
  fieldSums 0 fields ++ [endFrom 0 fields + align fields]

/-- The sums for a variant: for the offset of the payloads, for the end of the largest one, and for
rounding up this end. -/
def variantSums (cases : Nat) (payloads : List Extent) : List Nat :=
  let offset := roundUp (tagBytes cases) (align payloads)
  [tagBytes cases + align payloads, offset + size payloads,
    offset + size payloads + max (tagBytes cases) (align payloads)]

/-- The sum for flags, which are counted in words of 32 bits if there are more than 16. -/
def flagsSums (count : Nat) : List Nat := if count ≤ 16 then [] else [count + 32]

/-- The sums that are formed for the extent of a kind. No other number on the way is larger. -/
def sums (extentOf : TypeRef → Extent) (kind : TypeKind) : List Nat :=
  let parts := kind.parts.map extentOf
  match kind with
  | .record _ | .tuple _ => recordSums parts
  | .variant cases => variantSums cases.length parts
  | .enum cases => variantSums cases.length parts
  | .option _ | .result _ _ => variantSums 2 parts
  | .flags labels => flagsSums labels.length
  | _ => []

end CanonicalAbi

/-- A value of the kind is an index of 32 bits. -/
def Kind.IsIndex : TypeKind → Prop
  | .own _ | .borrow _ | .resource | .future _ | .stream _ | .errorContext => True
  | _ => False

/-- A type has an extent by the recursive definition. -/
inductive Graph.HasExtent (graph : Graph) : TypeRef → Extent → Prop
  | primitive (type : Primitive) : HasExtent graph (.primitive type) (.ofPrimitive type)
  | synonym {id : TypeId} {target : TypeRef} {extent : Extent}
      (found : graph.kind? id = some (.synonym target)) (isExtent : HasExtent graph target extent) :
      HasExtent graph (.defined id) extent
  | record {id : TypeId} {kind : TypeKind} {fields : List (Field TypeRef)}
      (extentOf : TypeRef → Extent) (found : graph.kind? id = some kind)
      (isRecord : kind.despecialize = .record fields)
      (each : ∀ type ∈ fields.map Field.type, HasExtent graph type (extentOf type)) :
      HasExtent graph (.defined id) (CanonicalAbi.record ((fields.map Field.type).map extentOf))
  | variant {id : TypeId} {kind : TypeKind} {cases : List (Case TypeRef)}
      (extentOf : TypeRef → Extent) (found : graph.kind? id = some kind)
      (isVariant : kind.despecialize = .variant cases)
      (each : ∀ type ∈ cases.filterMap Case.type, HasExtent graph type (extentOf type)) :
      HasExtent graph (.defined id)
        (CanonicalAbi.variant cases.length ((cases.filterMap Case.type).map extentOf))
  | flags {id : TypeId} {labels : List Label} (found : graph.kind? id = some (.flags labels)) :
      HasExtent graph (.defined id) (CanonicalAbi.flags labels.length)
  | list {id : TypeId} {element : TypeRef} (found : graph.kind? id = some (.list element)) :
      HasExtent graph (.defined id) ⟨8, 4⟩
  | pointer {id : TypeId} {target : TypeRef} (found : graph.kind? id = some (.pointer target)) :
      HasExtent graph (.defined id) ⟨4, 4⟩
  | index {id : TypeId} {kind : TypeKind} (found : graph.kind? id = some kind)
      (isIndex : kind.IsIndex) : HasExtent graph (.defined id) ⟨4, 4⟩

/-! ### Aligned extents -/

/-- The alignment divides eight and the size. -/
structure Extent.IsAligned (extent : Extent) : Prop where
  align : extent.align ∣ 8
  size : extent.align ∣ extent.size

theorem max_dvd {first second bound : Nat} (firstDivides : first ∣ bound) (secondDivides : second ∣ bound) :
    max first second ∣ bound := by
  rcases Nat.le_total first second with less | greater
  · rwa [Nat.max_eq_right less]
  · rwa [Nat.max_eq_left greater]

namespace CanonicalAbi

variable {extents : List Extent}

theorem align_dvd (aligned : ∀ extent ∈ extents, extent.IsAligned) : align extents ∣ 8 := by
  induction extents with
  | nil => exact Nat.one_dvd 8
  | cons first rest ih =>
    exact max_dvd (aligned first (List.mem_cons_self ..)).align
      (ih fun extent inRest => aligned extent (List.mem_cons_of_mem _ inRest))

theorem tagBytes_dvd (cases : Nat) : tagBytes cases ∣ 8 := by
  unfold tagBytes
  split
  · decide
  · split <;> decide

theorem isAligned_record (aligned : ∀ extent ∈ extents, extent.IsAligned) :
    (record extents).IsAligned :=
  ⟨align_dvd aligned, dvd_roundUp _ _⟩

theorem isAligned_variant (cases : Nat) (aligned : ∀ extent ∈ extents, extent.IsAligned) :
    (variant cases extents).IsAligned :=
  ⟨max_dvd (tagBytes_dvd cases) (align_dvd aligned), dvd_roundUp _ _⟩

theorem isAligned_flags (count : Nat) : (flags count).IsAligned := by
  unfold flags
  split
  · exact ⟨by decide, by decide⟩
  · split
    · exact ⟨by decide, by decide⟩
    · exact ⟨(by decide : 4 ∣ 8), Nat.dvd_mul_right ..⟩

end CanonicalAbi

namespace Extent

theorem isAligned_ofPrimitive (type : Primitive) : (ofPrimitive type).IsAligned := by
  cases type <;> exact ⟨by decide, by decide⟩

end Extent

theorem Graph.HasExtent.isAligned {graph : Graph} {type : TypeRef} {extent : Extent}
    (isExtent : graph.HasExtent type extent) : extent.IsAligned := by
  induction isExtent with
  | primitive type => exact Extent.isAligned_ofPrimitive type
  | synonym _ _ ih => exact ih
  | record extentOf _ _ _ ih =>
    refine CanonicalAbi.isAligned_record fun extent member => ?_
    obtain ⟨type, isField, rfl⟩ := List.mem_map.mp member
    exact ih type isField
  | variant extentOf _ _ _ ih =>
    refine CanonicalAbi.isAligned_variant _ fun extent member => ?_
    obtain ⟨type, isPayload, rfl⟩ := List.mem_map.mp member
    exact ih type isPayload
  | flags _ => exact CanonicalAbi.isAligned_flags _
  | list _ | pointer _ | index _ _ => exact ⟨by decide, by decide⟩

/-! ### Arithmetic that checks its sums -/

theorem one_le_align (extents : List Extent) : 1 ≤ CanonicalAbi.align extents := by
  induction extents with
  | nil => exact Nat.le_refl 1
  | cons first rest ih => exact Nat.le_trans ih (Nat.le_max_right _ _)

theorem UnsignedInt.bytes_ofCases (cases : Nat) :
    (UnsignedInt.ofCases cases).bytes = CanonicalAbi.tagBytes cases := by
  unfold UnsignedInt.ofCases CanonicalAbi.tagBytes
  by_cases few : cases ≤ 256
  · simp [few, bytes]
  · by_cases some : cases ≤ 65536 <;> simp [few, some, bytes]

namespace Extent

theorem widest_eq (payloads : List Extent) :
    widest payloads = ⟨CanonicalAbi.size payloads, CanonicalAbi.align payloads⟩ := by
  -- the fold starts with the extent of nothing, which the definition has at the end of the list
  have from_ (before : Extent) (positive : 1 ≤ before.align) :
      payloads.foldl (fun widest payload =>
          ⟨max widest.size payload.size, max widest.align payload.align⟩) before
        = ⟨max before.size (CanonicalAbi.size payloads),
            max before.align (CanonicalAbi.align payloads)⟩ := by
    induction payloads generalizing before with
    | nil =>
      exact congr (congrArg Extent.mk (Nat.max_zero before.size).symm) (Nat.max_eq_left positive).symm
    | cons first rest ih =>
      rw [List.foldl_cons, ih _ (Nat.le_trans positive (Nat.le_max_left _ _)), Nat.max_assoc,
        Nat.max_assoc]
      rfl
  rw [widest, from_ .empty (Nat.le_refl 1)]
  exact congr (congrArg Extent.mk (Nat.zero_max _)) (Nat.max_eq_right (one_le_align payloads))

section Checks

variable {arithmetic : Arithmetic} {within : Nat → Bool} {fields payloads : List Extent}
  (checks : arithmetic.Checks within)

include checks

theorem alignUp_eq (value : Nat) {align : Nat} (divides : align ∣ 8) :
    arithmetic.alignUp value align = guarded within [value + align] (roundUp value align) :=
  checks.alignUp value (divides.trans (by decide))

theorem place_eq (before : Extent) {field : Extent} (aligned : field.IsAligned) :
    place arithmetic before field
      = guarded within
          [before.size + field.align, roundUp before.size field.align + field.size]
          ⟨roundUp before.size field.align + field.size, max before.align field.align⟩ := by
  rw [place, alignUp_eq checks _ aligned.align]
  refine guarded_bind ?_
  rw [checks.add]
  exact guarded_map _

theorem padded_eq {extent : Extent} (divides : extent.align ∣ 8) :
    padded arithmetic extent = guarded within [extent.size + extent.align]
      { extent with size := roundUp extent.size extent.align } := by
  rw [padded, alignUp_eq checks _ divides]
  exact guarded_map _

/-- Fields are placed one after another. -/
theorem foldlM_place (before : Extent) (positive : 1 ≤ before.align)
    (aligned : ∀ extent ∈ fields, extent.IsAligned) :
    fields.foldlM (place arithmetic) before = guarded within (CanonicalAbi.fieldSums before.size fields)
      ⟨CanonicalAbi.endFrom before.size fields, max before.align (CanonicalAbi.align fields)⟩ := by
  induction fields generalizing before with
  | nil =>
    have same : max before.align (CanonicalAbi.align []) = before.align := Nat.max_eq_left positive
    rw [same]
    rfl
  | cons first rest ih =>
    have alignedRest : ∀ extent ∈ rest, extent.IsAligned :=
      fun extent inRest => aligned extent (List.mem_cons_of_mem _ inRest)
    have others := ih ⟨roundUp before.size first.align + first.size, max before.align first.align⟩
      (Nat.le_trans positive (Nat.le_max_left _ _)) alignedRest
    rw [List.foldlM_cons, place_eq checks before (aligned first (List.mem_cons_self ..))]
    refine Eq.trans (guarded_bind others) ?_
    rw [Nat.max_assoc]
    rfl

/-- **A record has its canonical extent**, if its sums are within reach. -/
theorem record_eq (aligned : ∀ extent ∈ fields, extent.IsAligned) :
    record arithmetic fields
      = guarded within (CanonicalAbi.recordSums fields) (CanonicalAbi.record fields) := by
  have greatest : max 1 (CanonicalAbi.align fields) = CanonicalAbi.align fields :=
    Nat.max_eq_right (one_le_align fields)
  have placed : fields.foldlM (place arithmetic) .empty
      = guarded within (CanonicalAbi.fieldSums 0 fields)
          ⟨CanonicalAbi.endFrom 0 fields, CanonicalAbi.align fields⟩ :=
    greatest ▸ foldlM_place checks .empty (Nat.le_refl 1) aligned
  rw [record, placed]
  exact guarded_bind (padded_eq checks (CanonicalAbi.align_dvd aligned))

theorem payloadOffset_eq (cases : Nat) (aligned : ∀ extent ∈ payloads, extent.IsAligned) :
    payloadOffset arithmetic (.ofCases cases) payloads
      = guarded within [CanonicalAbi.tagBytes cases + CanonicalAbi.align payloads]
          (roundUp (CanonicalAbi.tagBytes cases) (CanonicalAbi.align payloads)) := by
  rw [payloadOffset, widest_eq, UnsignedInt.bytes_ofCases]
  exact alignUp_eq checks _ (CanonicalAbi.align_dvd aligned)

/-- **A variant has its canonical extent**, if its sums are within reach. -/
theorem variant_eq (cases : Nat) (aligned : ∀ extent ∈ payloads, extent.IsAligned) :
    variant arithmetic (.ofCases cases) payloads
      = guarded within (CanonicalAbi.variantSums cases payloads)
          (CanonicalAbi.variant cases payloads) := by
  rw [variant, payloadOffset_eq checks cases aligned, widest_eq, UnsignedInt.bytes_ofCases]
  refine guarded_bind ?_
  rw [checks.add]
  exact guarded_bind (padded_eq checks (CanonicalAbi.isAligned_variant cases aligned).align)

/-- Flags have their canonical extent, if there is room for rounding up their number. -/
theorem ofFlags_eq (count : Nat) : ofFlags arithmetic count
    = guarded within (CanonicalAbi.flagsSums count) (CanonicalAbi.flags count) := by
  have words : roundUp count 32 / 32 * 4 = 4 * ((count + 31) / 32) := by
    rw [roundUp, Nat.mul_div_cancel _ (by decide), Nat.mul_comm]
    rfl
  unfold ofFlags FlagsShape.ofCount CanonicalAbi.flagsSums CanonicalAbi.flags
  by_cases few : count ≤ 8
  · have small : count ≤ 16 := Nat.le_trans few (by decide)
    simp only [few, small, if_true]
    rfl
  · by_cases some : count ≤ 16
    · simp only [few, some, if_true, if_false]
      rfl
    · simp only [few, some, if_false]
      rw [checks.alignUp count (Nat.dvd_refl 32), guarded_map, guarded_map, ofFlagsShape, words]

end Checks

end Extent

/-! ### Kinds -/

namespace LayoutTable

/-- A kind has the extent of the record or variant that it is laid out like. -/
theorem calculate_despecialize (table : LayoutTable) (kind : TypeKind) :
    table.calculate kind.despecialize = table.calculate kind := by
  cases kind with
  | tuple types =>
    have same : (Kind.positionalFields types).map (fun field => table.extent field.type)
        = types.map table.extent := by
      rw [← congrArg (List.map table.extent) (Kind.map_type_positionalFields types), List.map_map]
      rfl
    exact congrArg (Extent.record table.arithmetic) same
  | enum cases => simp [Kind.despecialize, calculate, Kind.bareCase, Function.comp_def]
  | _ => rfl

/-- **A kind has its canonical extent** on a table with aligned entries, if its sums are within reach. -/
theorem calculate_eq {table : LayoutTable} {within : Nat → Bool} (checks : table.arithmetic.Checks within)
    {kind : TypeKind} (aligned : ∀ type ∈ kind.parts, (table.extent type).IsAligned)
    (known : kind ≠ .unknown) :
    table.calculate kind = guarded within (CanonicalAbi.sums table.extent kind)
      (CanonicalAbi.extent table.extent kind) := by
  have parts : ∀ extent ∈ kind.parts.map table.extent, extent.IsAligned := by
    intro extent member
    obtain ⟨type, isPart, rfl⟩ := List.mem_map.mp member
    exact aligned type isPart
  cases kind with
  | unknown => exact absurd rfl known
  | record fields =>
    have sameTypes : fields.map (fun field => table.extent field.type)
        = (Kind.record fields : TypeKind).parts.map table.extent := by
      rw [Kind.parts, List.map_map]
      rfl
    rw [calculate, sameTypes]
    exact Extent.record_eq checks parts
  | tuple types => exact Extent.record_eq checks parts
  | variant cases =>
    have payloads : table.payloads (cases.map Case.type)
        = (Kind.variant cases : TypeKind).parts.map table.extent := by
      rw [LayoutTable.payloads, List.filterMap_map]
      rfl
    rw [calculate, variant, payloads, List.length_map]
    exact Extent.variant_eq checks _ parts
  | enum cases =>
    have payloads : table.payloads (cases.map fun _ => none)
        = (Kind.enum cases : TypeKind).parts.map table.extent := by
      rw [LayoutTable.payloads, List.filterMap_map]
      simp [Kind.parts]
    rw [calculate, variant, payloads, List.length_map]
    exact Extent.variant_eq checks _ parts
  | option payload => exact Extent.variant_eq checks 2 parts
  | result ok err =>
    have payloads : table.payloads [ok, err]
        = (Kind.result ok err : TypeKind).parts.map table.extent := by
      cases ok <;> cases err <;> rfl
    rw [calculate, variant, payloads]
    exact Extent.variant_eq checks 2 parts
  | flags labels => exact Extent.ofFlags_eq checks labels.length
  | _ => exact guarded_nil.symm

end LayoutTable

/-! ### Tables and canonical extents -/

namespace Graph

variable {graph : Graph} {table : LayoutTable} {within : Nat → Bool}

theorem isAligned_of_mem_map {types : List TypeRef} {extentOf : TypeRef → Extent}
    (each : ∀ type ∈ types, graph.HasExtent type (extentOf type)) :
    ∀ extent ∈ types.map extentOf, extent.IsAligned := by
  intro extent member
  obtain ⟨type, isPart, rfl⟩ := List.mem_map.mp member
  exact (each type isPart).isAligned

/-- **A table that solves the layout equations has the canonical extents**, whatever its arithmetic is:
for there is no table where a sum is out of reach. -/
theorem HasExtent.extent_eq (checks : table.arithmetic.Checks within)
    (solved : ∀ id kind, graph.kind? id = some kind → graph.IsGrounded id →
      table.calculate kind = .ok (table.extentOfId id))
    {type : TypeRef} {extent : Extent} (isExtent : graph.HasExtent type extent)
    (grounded : graph.IsGroundedType type) : table.extent type = extent := by
  -- the equation of the type, and after it the parts
  induction isExtent with
  | primitive type => rfl
  | @synonym id target extent found _ ih =>
    have equation := solved id _ found grounded
    have part := ih (grounded.of_mentions found (List.mem_singleton_self target))
    exact (Except.ok.inj equation).symm.trans part
  | @record id kind fields extentOf found isRecord each ih =>
    have equation := solved id kind found grounded
    rw [← table.calculate_despecialize, isRecord] at equation
    have mentions : kind.mentions = fields.map Field.type := by
      rw [← Kind.mentions_despecialize, isRecord]
      rfl
    have parts : fields.map (fun field => table.extent field.type)
        = (fields.map Field.type).map extentOf := by
      rw [← List.map_congr_left fun type isField =>
        ih type isField (grounded.of_mentions found (mentions ▸ isField)), List.map_map]
      rfl
    rw [LayoutTable.calculate, parts, Extent.record_eq checks (isAligned_of_mem_map each)] at equation
    exact (eq_of_guarded equation).symm
  | @variant id kind cases extentOf found isVariant each ih =>
    have equation := solved id kind found grounded
    rw [← table.calculate_despecialize, isVariant] at equation
    have mentions : kind.mentions = cases.filterMap Case.type := by
      rw [← Kind.mentions_despecialize, isVariant]
      rfl
    have payloads : table.payloads (cases.map Case.type)
        = (cases.filterMap Case.type).map extentOf := by
      rw [← List.map_congr_left fun type isPayload =>
        ih type isPayload (grounded.of_mentions found (mentions ▸ isPayload)), LayoutTable.payloads,
        List.filterMap_map]
      rfl
    rw [LayoutTable.calculate, LayoutTable.variant, payloads, List.length_map,
      Extent.variant_eq checks _ (isAligned_of_mem_map each)] at equation
    exact (eq_of_guarded equation).symm
  | @flags id labels found =>
    have equation := solved id _ found grounded
    rw [LayoutTable.calculate, Extent.ofFlags_eq checks] at equation
    exact (eq_of_guarded equation).symm
  | @list id element found => exact (Except.ok.inj (solved id _ found grounded)).symm
  | @pointer id target found => exact (Except.ok.inj (solved id _ found grounded)).symm
  | @index id kind found isIndex =>
    have equation := solved id kind found grounded
    cases kind <;> first | exact isIndex.elim | exact (Except.ok.inj equation).symm

/-- **Every grounded type has a canonical extent.** -/
theorem IsClosed.exists_hasExtent (closed : graph.IsClosed)
    (known : ∀ id, graph.kind? id ≠ some .unknown) {id : TypeId} (held : graph.Holds id.item)
    (grounded : graph.IsGrounded id) : ∃ extent, graph.HasExtent (.defined id) extent := by
  refine closed.grounded_induction
    (motive := fun id => ∃ extent, graph.HasExtent (.defined id) extent)
    (fun id kind found _ ih => ?_) held grounded
  have mentioned : ∀ type ∈ kind.mentions, ∃ extent, graph.HasExtent type extent := by
    intro type member
    cases type with
    | primitive type => exact ⟨_, .primitive type⟩
    | defined other => exact ih other member
  have chosen : ∀ type, ∃ extent, type ∈ kind.mentions → graph.HasExtent type extent := by
    intro type
    by_cases member : type ∈ kind.mentions
    · obtain ⟨extent, isExtent⟩ := mentioned type member
      exact ⟨extent, fun _ => isExtent⟩
    · exact ⟨.empty, fun isMember => absurd isMember member⟩
  choose extentOf each using chosen
  rw [← Kind.mentions_despecialize] at each
  cases kind with
  | record _ | tuple _ => exact ⟨_, .record extentOf found rfl each⟩
  | variant _ | enum _ | option _ | result _ _ => exact ⟨_, .variant extentOf found rfl each⟩
  | synonym target => exact ⟨_, .synonym found (each target (List.mem_singleton_self target))⟩
  | flags _ => exact ⟨_, .flags found⟩
  | list _ => exact ⟨_, .list found⟩
  | pointer _ => exact ⟨_, .pointer found⟩
  | unknown => exact absurd found (known id)
  | _ => exact ⟨_, .index found trivial⟩

/-- **The layout of a graph is canonical.** Every type comes once in the order in which the layout is
filled. A grounded type comes after all that it refers to; its extent is what `calculate` gives for
its kind on the finished table, and it is the one extent that the recursive definition gives. This is so
with natural numbers, for which there always is a layout, and in words if there is one. -/
theorem layout_isCanonical (isRead : graph.IsRead) :
    graph.typeOrder.Nodup
      ∧ ∃ exact, LayoutTable.ofGraph .exact graph = .ok exact
        ∧ ∀ id kind, graph.kind? id = some kind → graph.IsGrounded id →
            (∃ before after, graph.typeOrder = before ++ id :: after
                ∧ ∀ other ∈ kind.directIds, other ∈ before)
              ∧ exact.calculate kind = .ok (exact.extentOfId id)
              ∧ (∀ extent, graph.HasExtent (.defined id) extent ↔ exact.extentOfId id = extent)
              ∧ ∀ table, graph.layout = .ok table →
                  table.calculate kind = .ok (table.extentOfId id)
                    ∧ table.extentOfId id = exact.extentOfId id := by
  have linked := wellLinked_of_isRead isRead
  obtain ⟨exact, isExact, inNumbers, solved⟩ := LayoutTable.exists_ofGraph linked.known
  refine ⟨graph.postordered_typeOrder.1, exact, isExact, fun id kind found grounded => ?_⟩
  have isCanonical {extent : Extent} (isExtent : graph.HasExtent (.defined id) extent) :
      exact.extentOfId id = extent :=
    isExtent.extent_eq (inNumbers ▸ Arithmetic.checks_exact) solved grounded
  obtain ⟨extent, isExtent⟩ :=
    linked.closed.exists_hasExtent linked.known (holds_of_kind? found) grounded
  have canonical : graph.HasExtent (.defined id) (exact.extentOfId id) := isCanonical isExtent ▸ isExtent
  refine ⟨?_, solved id kind found grounded, ?_, fun table isTable => ?_⟩
  · rw [← directIds_of_kind? found]
    exact exists_split_typeOrder (holds_of_kind? found) grounded
  · intro extent
    exact ⟨isCanonical, fun same => same ▸ canonical⟩
  · have inWords : table.arithmetic = .word := (LayoutTable.shape_foldlM isTable).1
    have solvedInWords (id : TypeId) (kind : TypeKind) (found : graph.kind? id = some kind) :=
      LayoutTable.solved_of_ofGraph isTable found
    exact ⟨solvedInWords id kind found grounded,
      canonical.extent_eq (inWords ▸ Arithmetic.checks_word) solvedInWords grounded⟩

end Graph

/-! ### A graph with a circle -/

namespace Graph

namespace Reversed

/-- The lines of a document with a record before the tuple that it contains and a list of itself
between them. -/
def lines : List String := [
  "\x7b\"types\":[\x7b\"kind\":\x7b\"record\":\x7b\"fields\":[",
  "\x7b\"name\":\"x\",\"type\":\"u8\"\x7d,\x7b\"name\":\"y\",\"type\":2\x7d]\x7d\x7d\x7d,",
  "\x7b\"kind\":\x7b\"list\":1\x7d\x7d,",
  "\x7b\"kind\":\x7b\"tuple\":\x7b\"types\":[\"u32\",\"u64\"]\x7d\x7d\x7d]\x7d"]

/-- The graph that the document describes. -/
def graph : Graph where
  types := #[
    { kind := .record [⟨"x", .primitive .u8, {}⟩, ⟨"y", .defined ⟨2⟩, {}⟩] },
    { kind := .list (.defined ⟨1⟩) },
    { kind := .tuple [.primitive .u32, .primitive .u64] }]

theorem accepted : ofText ("\n".intercalate lines) = .ok graph := by
  rw [ofText_intercalate]
  decide +kernel

theorem isGrounded_tuple : graph.IsGrounded ⟨2⟩ :=
  isGrounded_of_directIds fun _ member => by cases member

theorem isGrounded_record : graph.IsGrounded ⟨0⟩ := by
  refine isGrounded_of_directIds fun other member => ?_
  have refersTo : graph.directIds ⟨0⟩ = [⟨2⟩] := rfl
  rw [refersTo, List.mem_singleton] at member
  exact member ▸ isGrounded_tuple

theorem onCircle_list : graph.OnCircle ⟨1⟩ :=
  .single (List.mem_singleton_self _)

end Reversed

/-- The record is laid out after the tuple, and its extent is canonical although another type is
circular. -/
theorem layout_isCanonical_reversed :
    Reversed.graph.IsRead ∧ Reversed.graph.OnCircle ⟨1⟩ ∧ Reversed.graph.IsGrounded ⟨0⟩
      ∧ ∃ before after, Reversed.graph.typeOrder = before ++ ⟨0⟩ :: after ∧ ⟨2⟩ ∈ before
        ∧ ∃ exact, LayoutTable.ofGraph .exact Reversed.graph = .ok exact
          ∧ Reversed.graph.HasExtent (.defined ⟨0⟩) (exact.extentOfId ⟨0⟩) := by
  have isRead : Reversed.graph.IsRead := ⟨_, Reversed.accepted⟩
  obtain ⟨-, exact, isExact, each⟩ := layout_isCanonical isRead
  obtain ⟨⟨before, after, split, isBefore⟩, -, canonical, -⟩ :=
    each ⟨0⟩ _ rfl Reversed.isGrounded_record
  exact ⟨isRead, Reversed.onCircle_list, Reversed.isGrounded_record, before, after, split,
    isBefore ⟨2⟩ (List.mem_singleton_self _), exact, isExact, (canonical _).mpr rfl⟩

example : Reversed.graph.layout.map LayoutTable.extents = .ok #[⟨24, 8⟩, ⟨8, 4⟩, ⟨16, 8⟩] := by
  decide +kernel

end Graph

end WitGraph
