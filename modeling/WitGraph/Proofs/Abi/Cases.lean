/-
**The flat form of a variant is the join of its cases.**

A variant, option, result or enum is passed as its tag and then in slots that the payloads of its
cases share (`SharesSlots`): as many as the longest flat form has entries, each the join of the entries
there, so that it is wide enough for all of them and no wider than needed if they agree. Neither this
nor the layout depends on the order of the cases.
-/

import WitGraph.Proofs.Abi.Appending
import WitGraph.Proofs.Layout.Canonical

namespace WitGraph

/-- The slots that some flat forms share. -/
structure SharesSlots (flats : List (List CoreType)) (slots : List CoreType) : Prop where
  /-- There are as many as the longest flat form has entries. -/
  length : slots.length = (flats.map List.length).foldl max 0
  /-- A slot has the join of the entries there. -/
  joined : ∀ slot, slots[slot]? = joinedEntry flats slot
  /-- A slot is at least as wide as any entry there. -/
  wide : ∀ flat ∈ flats, ∀ (slot : Nat) (entry : CoreType), flat[slot]? = some entry →
    ∃ type : CoreType, slots[slot]? = some type ∧ entry.bytes ≤ type.bytes
  /-- A slot has the type that all entries there agree on, if they do. -/
  agreed : ∀ (slot : Nat) (type entry : CoreType), slots[slot]? = some type →
    (∀ flat ∈ flats, ∀ other, flat[slot]? = some other → other = entry) → type = entry

theorem sharesSlots_joinAll (flats : List (List CoreType)) : SharesSlots flats (joinAll flats) where
  length := length_joinAll flats
  joined := getElem?_joinAll flats
  wide flat member slot entry found := by
    have isEntry : some entry ∈ flats.map (·[slot]?) := List.mem_map.mpr ⟨flat, member, found⟩
    rw [getElem?_joinAll]
    exact bytes_le_of_mem none isEntry
  agreed slot type entry found agree := by
    rw [getElem?_joinAll] at found
    refine foldl_merge_of_agree (fun other member => ?_) (Or.inl rfl) found
    obtain ⟨flat, isFlat, isOther⟩ := List.mem_map.mp member
    exact agree flat isFlat other isOther

/-! ### Tags -/

/-- The tag of at most `2 ^ 32` cases is wide enough to tell them apart. -/
theorem UnsignedInt.le_two_pow_bytes_ofCases {cases : Nat} (few : cases ≤ 2 ^ 32) :
    cases ≤ 2 ^ (8 * (ofCases cases).bytes) := by
  unfold ofCases
  by_cases byte : cases ≤ 256
  · simp [byte, bytes]
  · by_cases half : cases ≤ 65536
    · simp [byte, half, bytes]
    · simpa [byte, half, bytes] using few

/-! ### The order of the cases -/

theorem Extent.widest_perm {payloads others : List Extent} (permuted : payloads.Perm others) :
    widest payloads = widest others := by
  refine permuted.foldl_eq' (fun first _ second _ before => ?_) _
  rw [Nat.max_right_comm, Nat.max_right_comm before.align]

/-- The layout of a variant does not depend on the order of its cases. -/
theorem LayoutTable.calculate_perm (table : LayoutTable) {cases others : List (Case TypeRef)}
    (permuted : cases.Perm others) :
    table.calculate (.variant others) = table.calculate (.variant cases) := by
  have payloads : (table.payloads (others.map Case.type)).Perm (table.payloads (cases.map Case.type)) :=
    ((permuted.symm.map Case.type).filterMap _).map table.extent
  rw [calculate, calculate, variant, variant, Extent.variant, Extent.variant, Extent.payloadOffset,
    Extent.payloadOffset, Extent.widest_perm payloads, List.length_map, List.length_map,
    permuted.length_eq]

namespace Graph

variable {graph : Graph} {cases : List (Case TypeRef)} {flats : List (List CoreType)}

theorem HaveFlatForms.pushKind_eq (forms : graph.HaveFlatForms (cases.filterMap Case.type) flats)
    {kind : TypeKind} (isVariant : kind.despecialize = .variant cases) (flat : FlatForm) :
    graph.pushKind flat kind
      = .ok (flat ++ (.ofInt (.ofCases cases.length) :: joinAll flats)) := by
  have alone : PushRef.alone graph.pushType = graph.flat := funext alone_pushType
  have payloads : ((cases.map Case.type).filterMap fun payload => payload)
      = cases.filterMap Case.type := by
    rw [List.filterMap_map]
    rfl
  rw [pushKind, ← Kind.pushFlat_despecialize, isVariant, Kind.pushFlat, Kind.pushCases_eq, alone,
    payloads, Success.mapM_eq_ok_iff.mpr forms, List.length_map]
  rfl

/-- The flat forms of permuted cases are permuted. -/
theorem HaveFlatForms.perm (forms : graph.HaveFlatForms (cases.filterMap Case.type) flats)
    {others : List (Case TypeRef)} (permuted : cases.Perm others) :
    ∃ otherFlats, graph.HaveFlatForms (others.filterMap Case.type) otherFlats
      ∧ otherFlats.Perm flats :=
  List.perm_comp_forall₂ (permuted.symm.filterMap Case.type) forms

/-- **The flat form of a variant is the join of its cases**, behind its tag. This is so for options,
results and enums as well; the order of the cases matters neither for the flat form nor for the
layout. -/
theorem pushKind_joinsCases (isRead : graph.IsRead) {kind : TypeKind}
    (isVariant : kind.despecialize = .variant cases) (few : cases.length ≤ 2 ^ 32)
    (held : ∀ id, .defined id ∈ cases.filterMap Case.type → graph.Holds id.item)
    (grounded : ∀ type ∈ cases.filterMap Case.type, graph.IsGroundedType type) :
    ∃ flats slots, graph.HaveFlatForms (cases.filterMap Case.type) flats ∧ SharesSlots flats slots
      ∧ cases.length ≤ 2 ^ (8 * (UnsignedInt.ofCases cases.length).bytes)
      ∧ graph.pushKind #[] kind = .ok (.ofInt (.ofCases cases.length) :: slots).toArray
      ∧ ∀ others, cases.Perm others →
          graph.pushKind #[] (.variant others) = graph.pushKind #[] kind
            ∧ ∀ table : LayoutTable, table.calculate (.variant others) = table.calculate kind := by
  have linked := wellLinked_of_isRead isRead
  obtain ⟨flats, forms⟩ := linked.closed.exists_haveFlatForms linked.known held grounded
  have pushed := forms.pushKind_eq isVariant #[]
  refine ⟨flats, joinAll flats, forms, sharesSlots_joinAll flats,
    UnsignedInt.le_two_pow_bytes_ofCases few, ?_, fun others permuted => ⟨?_, fun table => ?_⟩⟩
  · rw [pushed]
    exact congrArg Except.ok (Array.toList_inj.mp (by simp))
  · obtain ⟨otherFlats, otherForms, samePerm⟩ := forms.perm permuted
    rw [pushed, otherForms.pushKind_eq rfl, joinAll_perm samePerm, permuted.length_eq]
  · rw [table.calculate_perm permuted, ← isVariant, table.calculate_despecialize]

/-! ### Payloads of different widths -/

/-- Cases with a string, a pair of a `u32` and a `u64`, a float and nothing. -/
def Reversed.mixedCases : List (Case TypeRef) := [
  { name := "text", type := some (.primitive .string) }, { name := "pair", type := some (.defined ⟨2⟩) },
  { name := "number", type := some (.primitive .f32) }, { name := "nothing", type := none }]

/-- The slots of the payloads are those of the pair: a pointer, an `i32` and an `f32` share an `i32`,
and an `i32` and an `i64` share an `i64`, in whatever order the cases are. -/
theorem pushKind_joinsCases_mixed :
    Reversed.graph.IsRead ∧ Reversed.graph.OnCircle ⟨1⟩ ∧ Reversed.graph.IsGrounded ⟨2⟩
      ∧ Reversed.mixedCases.length ≤ 2 ^ 32
      ∧ (∃ flats, Reversed.graph.HaveFlatForms (Reversed.mixedCases.filterMap Case.type) flats
          ∧ SharesSlots flats [.i32, .i64])
      ∧ Reversed.graph.pushKind #[] (.variant Reversed.mixedCases) = .ok #[.i32, .i32, .i64]
      ∧ Reversed.graph.pushKind #[] (.variant Reversed.mixedCases.reverse) = .ok #[.i32, .i32, .i64] := by
  have isRead : Reversed.graph.IsRead := ⟨_, Reversed.accepted⟩
  have few : Reversed.mixedCases.length ≤ 2 ^ 32 := by decide
  have payloads : Reversed.mixedCases.filterMap Case.type
      = [.primitive .string, .defined ⟨2⟩, .primitive .f32] := rfl
  have held : ∀ id, .defined id ∈ Reversed.mixedCases.filterMap Case.type →
      Reversed.graph.Holds id.item := by
    intro id member
    obtain rfl : id = ⟨2⟩ := by simpa [payloads] using member
    decide
  have grounded : ∀ type ∈ Reversed.mixedCases.filterMap Case.type,
      Reversed.graph.IsGroundedType type := by
    intro type member
    simp only [payloads, List.mem_cons, List.not_mem_nil, or_false] at member
    rcases member with rfl | rfl | rfl
    · trivial
    · exact Reversed.isGrounded_tuple
    · trivial
  have pushed : Reversed.graph.pushKind #[] (.variant Reversed.mixedCases)
      = .ok #[.i32, .i32, .i64] := by decide +kernel
  have isVariant : (.variant Reversed.mixedCases : TypeKind).despecialize
      = .variant Reversed.mixedCases := rfl
  obtain ⟨flats, slots, forms, shared, -, isPushed, anyOrder⟩ :=
    pushKind_joinsCases isRead isVariant few held grounded
  have sameSlots : slots = [.i32, .i64] := by
    have same := Except.ok.inj (isPushed.symm.trans pushed)
    exact (List.cons.inj (congrArg Array.toList same)).2
  refine ⟨isRead, Reversed.onCircle_list, Reversed.isGrounded_tuple, few, ⟨flats, forms, ?_⟩, pushed, ?_⟩
  · exact sameSlots ▸ shared
  · exact (anyOrder _ (List.reverse_perm _).symm).1.trans pushed

end Graph

end WitGraph
