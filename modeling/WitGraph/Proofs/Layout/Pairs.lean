/-
**Sizes that grow exponentially.**

In a graph of pairs, each of the pair before it, every pair is twice as large as the one before
(`Pairs.hasExtent`), so a short document describes types with sizes around `2 ^ 64`, where words end. The
document can hold further tuples of pairs. All of these graphs can be read (`Pairs.isRead`).
-/

import WitGraph.Proofs.Document.Writable
import WitGraph.Proofs.Layout.Canonical

namespace WitGraph.Graph.Pairs

/-- What a pair consists of twice: the pair before it, or a primitive type. -/
def part : Nat → TypeRef
  | 0 => .primitive .u64
  | index + 1 => .defined ⟨index⟩

/-- So many pairs, each of the one before. -/
def pairs (count : Nat) : List (List TypeRef) := (List.range count).map fun index => [part index, part index]

/-- References to so many pairs. -/
def references (count : Nat) : List TypeRef := (List.range count).map fun index => .defined ⟨index⟩

/-- The definition of a tuple. -/
def tuple (types : List TypeRef) : TypeDef := { kind := .tuple types }

/-- A graph of so many pairs, each of the one before, and of some tuples after them. -/
def graph (count : Nat) (tuples : List (List TypeRef)) : Graph where
  types := ((pairs count ++ tuples).map tuple).toArray

variable {count index : Nat} {tuples : List (List TypeRef)}

theorem type?_eq_some_iff {id : TypeId} {type : TypeDef} :
    (graph count tuples).type? id = some type
      ↔ ∃ types, (pairs count ++ tuples)[id.index]? = some types ∧ tuple types = type := by
  show ((pairs count ++ tuples).map tuple).toArray[id.index]? = some type ↔ _
  rw [List.getElem?_toArray, List.getElem?_map, Option.map_eq_some_iff]

theorem getElem?_pairs (below : index < count) : (pairs count)[index]? = some [part index, part index] := by
  simp [pairs, below]

theorem kind?_eq (below : index < count) :
    (graph count tuples).kind? ⟨index⟩ = some (.tuple [part index, part index]) := by
  have inside : index < (pairs count).length := by simpa [pairs] using below
  refine Option.map_eq_some_iff.mpr ⟨tuple [part index, part index], type?_eq_some_iff.mpr ?_, rfl⟩
  refine ⟨_, ?_, rfl⟩
  rw [List.getElem?_append_left inside, getElem?_pairs below]

/-- Every type of the graph is a pair or one of the tuples. -/
theorem exists_tuple {id : TypeId} {type : TypeDef}
    (found : (graph count tuples).type? id = some type) :
    ∃ types, tuple types = type
      ∧ (id.index < count ∧ types = [part id.index, part id.index] ∨ types ∈ tuples) := by
  obtain ⟨types, listed, rfl⟩ := type?_eq_some_iff.mp found
  refine ⟨types, rfl, ?_⟩
  by_cases below : id.index < count
  · have inside : id.index < (pairs count).length := by simpa [pairs] using below
    rw [List.getElem?_append_left inside, getElem?_pairs below] at listed
    exact Or.inl ⟨below, (Option.some.inj listed).symm⟩
  · have outside : (pairs count).length ≤ id.index := by simpa [pairs] using below
    rw [List.getElem?_append_right outside] at listed
    exact Or.inr (List.mem_of_getElem? listed)

/-! ### Reading the graphs -/

theorem isWritable (count : Nat) (tuples : List (List TypeRef)) : (graph count tuples).IsWritable := by
  intro arena id entity found
  cases arena with
  | type =>
    obtain ⟨types, rfl, -⟩ := exists_tuple found
    exact ⟨trivial, trivial⟩
  | _ => cases found

theorem isClosed (inside : ∀ types ∈ tuples, ∀ id, TypeRef.defined id ∈ types → id.index < count) :
    (graph count tuples).IsClosed := by
  have held (id : TypeId) (below : id.index < count) : (graph count tuples).Holds id.item :=
    holds_of_kind? (kind?_eq below)
  rintro ⟨arena, index⟩ link member
  obtain ⟨entity, found⟩ := ((graph count tuples).holds_iff_entity? ⟨arena, index⟩).mp
    (holds_of_links (List.ne_nil_of_mem member))
  cases arena with
  | type =>
    obtain ⟨types, rfl, which⟩ := exists_tuple found
    rw [links_of_entity? found] at member
    obtain ⟨other, isDirect, rfl⟩ := List.mem_map.mp member
    have listed : TypeRef.defined other ∈ types := Kind.mem_directIds_iff.mp isDirect
    rcases which with ⟨below, rfl⟩ | isTuple
    · have isPart : TypeRef.defined other = part index := by
        rcases List.mem_pair.mp listed with same | same <;> exact same
      -- a pair refers to the one before it, which is there as well
      cases index with
      | zero => cases isPart
      | succ before =>
        cases isPart
        exact held ⟨before⟩ (Nat.lt_of_succ_lt below)
    · exact held other (inside types isTuple other listed)
  | _ => cases found

/-- The graphs can be read, as long as there are words for the ids of all types. -/
theorem isRead (inside : ∀ types ∈ tuples, ∀ id, TypeRef.defined id ∈ types → id.index < count)
    (words : count + tuples.length ≤ Number.wordLimit) : (graph count tuples).IsRead := by
  have addressable : (graph count tuples).IsAddressable := by
    intro arena
    cases arena with
    | type =>
      show ((pairs count ++ tuples).map tuple).toArray.size ≤ Number.wordLimit
      simpa [pairs] using words
    | _ => exact Nat.zero_le _
  have accepted := (isWritable count tuples).reads_respelled (isClosed inside) addressable rfl
  have noWorlds : (graph count tuples).respelled = graph count tuples :=
    respelled_eq_self_iff.mpr fun world member => by simp [graph] at member
  exact ⟨_, noWorlds ▸ accepted⟩

theorem lt_of_mem_references {id : TypeId} (member : .defined id ∈ references count) : id.index < count := by
  obtain ⟨_, below, rfl⟩ : ∃ index < count, ⟨index⟩ = id := by simpa [references] using member
  exact below

/-! ### Sizes -/

theorem isGrounded (below : index < count) : (graph count tuples).IsGrounded ⟨index⟩ := by
  have refersTo {index : Nat} (below : index < count) {other : TypeId}
      (member : other ∈ (graph count tuples).directIds ⟨index⟩) : .defined other = part index := by
    rw [directIds_of_kind? (kind?_eq below), Kind.mem_directIds_iff] at member
    simpa [Kind.mentions] using member
  induction index with
  | zero =>
    refine isGrounded_of_directIds fun other member => ?_
    cases refersTo below member
  | succ index ih =>
    refine isGrounded_of_directIds fun other member => ?_
    cases refersTo below member
    exact ih (by omega)

/-- Every pair is twice as large as the one before. -/
theorem hasExtent (below : index < count) :
    (graph count tuples).HasExtent (.defined ⟨index⟩) ⟨2 ^ (index + 4), 8⟩ := by
  have twice (eighths : Nat) :
      CanonicalAbi.record [⟨8 * eighths, 8⟩, ⟨8 * eighths, 8⟩] = ⟨16 * eighths, 8⟩ := by
    simp [CanonicalAbi.record, CanonicalAbi.endFrom, CanonicalAbi.align, roundUp]
    omega
  induction index with
  | zero =>
    exact .record (fun _ => ⟨8, 8⟩) (kind?_eq below) rfl fun type member => by
      have isPart : type = .primitive .u64 := by simpa [Kind.positionalFields, part] using member
      rw [isPart]
      exact .primitive .u64
  | succ index ih =>
    have half : 2 ^ (index + 4) = 8 * 2 ^ (index + 1) := by
      simp only [Nat.pow_succ]
      omega
    have whole : 2 ^ (index + 1 + 4) = 16 * 2 ^ (index + 1) := by
      simp only [Nat.pow_succ]
      omega
    have isExtent := ih (Nat.lt_of_succ_lt below)
    rw [half] at isExtent
    rw [whole, ← twice]
    exact .record (fun _ => ⟨8 * 2 ^ (index + 1), 8⟩) (kind?_eq below) rfl fun type member => by
      have isPart : type = .defined ⟨index⟩ := by simpa [Kind.positionalFields, part] using member
      rw [isPart]
      exact isExtent

end WitGraph.Graph.Pairs
