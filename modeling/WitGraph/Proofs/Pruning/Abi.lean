/-
**Pruning keeps the ABI.**

A pruned graph mirrors the types of its source (`IsCopyOf.mirrors`), and each of its functions is a
function of the source with its ids renamed (`IsCopyOf.function?_origin`). So `pruneTo_keepsAbi`: for
types and functions that reach no circle, the layout, the flat form, the traits and the core signatures
are those of the originals, whatever the new ids are and whatever else the source holds.
-/

import WitGraph.Proofs.Abi.Mirroring
import WitGraph.Proofs.Dependency
import WitGraph.Proofs.Pruning.SelfContained

namespace WitGraph

/-- The place with its ids renamed. -/
def FunctionPlace.rename (via : Renaming) : FunctionPlace → FunctionPlace
  | .interface id name => .interface (via id) name
  | .world id side key => .world (via id) side (key.rename via)

namespace Graph

namespace IsCopyOf

variable {copy source : Graph} {origin via : Renaming}

/-! ### Back to the originals -/

/-- Renaming what a copy refers to is undone. -/
theorem origin_via_of_mem (isCopy : copy.IsCopyOf source origin via) (closed : copy.IsClosed)
    {item : Item} {arena : Arena} {id : Id arena} (member : (via id).item ∈ copy.links item) :
    origin (via id) = id :=
  isCopy.origin_via id (closed item _ member)

/-- The original of a type has its kind, with the ids of originals. -/
theorem kind?_origin (isCopy : copy.IsCopyOf source origin via) (closed : copy.IsClosed)
    {id : TypeId} {kind : TypeKind} (found : copy.kind? id = some kind) :
    source.kind? (origin id) = some (kind.rename origin) := by
  obtain ⟨type, isType, rfl⟩ := exists_of_kind? found
  obtain ⟨original, isOriginal, same⟩ := isCopy.copied id type isType
  cases (same : type = TypeDef.rename via original)
  have undone : (original.kind.rename via).rename origin = original.kind := by
    refine Kind.rename_undone fun other member => isCopy.origin_via other ?_
    have direct : via other ∈ copy.directIds id := by
      rw [directIds_of_kind? found]
      show via other ∈ (original.kind.rename via).directIds
      rw [Kind.directIds_rename]
      exact List.mem_map_of_mem member
    exact closed.holds_directId direct
  refine Option.map_eq_some_iff.mpr ⟨original, isOriginal, ?_⟩
  exact undone.symm

theorem mirrors (isCopy : copy.IsCopyOf source origin via) (closed : copy.IsClosed)
    (sourceClosed : source.IsClosed) : copy.Mirrors source origin :=
  ⟨closed, sourceClosed, isCopy.kind?_origin closed⟩

/-- The key of an entry of a copy leads back to the key of the original entry. -/
theorem rename_key_origin (isCopy : copy.IsCopyOf source origin via) (closed : copy.IsClosed)
    {id : WorldId} {world : World} (held : copy.world? id = some world) {side : Side}
    {key : WorldKey} {item : WorldItem} (listed : (key.rename via, item) ∈ (world.side side).entries) :
    (key.rename via).rename origin = key := by
  cases key with
  | name text => rfl
  | interface other =>
    have isEntity : copy.entity? id.item.id = some world := held
    have isLink : (via other).item ∈ copy.links id.item := by
      rw [links_of_entity? isEntity]
      exact mem_links_of_mem_entryLinks listed (List.mem_append_left _ (List.mem_singleton_self _))
    exact congrArg WorldKey.interface (isCopy.origin_via_of_mem closed isLink)

/-- **The original of a function stands at the original of its place.** -/
theorem function?_origin (isCopy : copy.IsCopyOf source origin via) (closed : copy.IsClosed)
    {place : FunctionPlace} {function : Function} (found : copy.function? place = some function) :
    source.function? (place.rename origin) = some (function.rename origin) := by
  have undone (original : Function) (isRenamed : original.rename via = function) :
      function.rename origin = original := by
    rw [← isRenamed]
    refine Function.rename_undone fun id member => isCopy.origin_via id (closed place.container _ ?_)
    refine mem_links_of_function? found ?_
    rw [← isRenamed, Function.mentionedIds_rename]
    exact List.mem_map_of_mem member
  cases place with
  | interface id name =>
    obtain ⟨interface, held, listed⟩ := function?_interface_iff.mp found
    obtain ⟨original, isOriginal, same⟩ := isCopy.copied id interface held
    cases (same : interface = Interface.rename via original)
    obtain ⟨⟨_, before⟩, isBefore, isEntry⟩ := List.mem_map.mp listed
    cases isEntry
    rw [undone before rfl]
    exact function?_interface_iff.mpr ⟨original, isOriginal, isBefore⟩
  | world id side key =>
    obtain ⟨world, held, listed⟩ := function?_world_iff.mp found
    obtain ⟨original, isOriginal, copied⟩ := isCopy.copied id world held
    obtain ⟨⟨oldKey, item⟩, isBefore, isEntry⟩ :=
      List.mem_map.mp ((Entity.IsCopy.sublist_side copied side).subset listed)
    obtain ⟨rfl, isItem⟩ : oldKey.rename via = key ∧ item.rename via = .function function :=
      Prod.mk.inj isEntry
    have sameKey := isCopy.rename_key_origin closed held listed
    cases item with
    | interface _ _ => cases isItem
    | type _ => cases isItem
    | function before =>
      rw [undone before (WorldItem.function.inj isItem)]
      refine function?_world_iff.mpr ⟨original, isOriginal, ?_⟩
      rw [sameKey]
      exact isBefore

theorem holds_origin (isCopy : copy.IsCopyOf source origin via) {arena : Arena} (id : Id arena)
    (held : copy.Holds id.item) : source.Holds (origin id).item := by
  obtain ⟨entity, found⟩ := (copy.holds_iff_entity? id.item).mp held
  obtain ⟨original, isOriginal, -⟩ := isCopy.copied id entity found
  exact (source.holds_iff_entity? _).mpr ⟨original, isOriginal⟩

end IsCopyOf

/-! ### The same ABI -/

/-- Distinct items have distinct originals, and the types and functions that reach no circle have the
ABI of their originals. -/
structure KeepsAbi (copy source : Graph) (origin : Renaming) : Prop where
  held : ∀ {arena : Arena} (id : Id arena), copy.Holds id.item → source.Holds (origin id).item
  injective : ∀ {arena : Arena} (first second : Id arena), copy.Holds first.item →
    copy.Holds second.item → origin first = origin second → first = second
  hasLayouts : (∃ table, LayoutTable.ofGraph .exact copy = .ok table)
    ∧ ∃ original, LayoutTable.ofGraph .exact source = .ok original
  /-- Layouts that exist agree, whatever they have been computed with. -/
  layouts : ∀ arithmetic table original, LayoutTable.ofGraph arithmetic copy = .ok table →
    LayoutTable.ofGraph arithmetic source = .ok original →
      ∀ id : TypeId, copy.Holds id.item → copy.IsGrounded id →
        table.extentOfId id = original.extentOfId (origin id)
  flatForms : ∀ id : TypeId, copy.Holds id.item → copy.IsGrounded id →
    ∃ entries, copy.flat (.defined id) = .ok entries
      ∧ source.flat (.defined (origin id)) = .ok entries
  traits : ∀ id : TypeId, copy.Holds id.item → copy.IsGrounded id →
    copy.hasPointer (.defined id) = source.hasPointer (.defined (origin id))
      ∧ copy.hasBorrow (.defined id) = source.hasBorrow (.defined (origin id))
      ∧ copy.hasResource (.defined id) = source.hasResource (.defined (origin id))
  /-- A function stands where its original does, and it has the same core signature. -/
  signatures : ∀ place function, copy.function? place = some function →
    (∀ type ∈ function.types, copy.IsGroundedType type) →
      source.function? (place.rename origin) = some (function.rename origin)
        ∧ ∀ side, ∃ signature, copy.signature side function = .ok signature
          ∧ source.signature side (function.rename origin) = .ok signature

/-- A copy of a closed graph without unknown kinds keeps the ABI. -/
theorem IsCopyOf.keepsAbi {copy source : Graph} {origin via : Renaming}
    (isCopy : copy.IsCopyOf source origin via) (closed : copy.IsClosed)
    (sourceClosed : source.IsClosed) (known : ∀ id, source.kind? id ≠ some .unknown) :
    copy.KeepsAbi source origin := by
  have mirrors := isCopy.mirrors closed sourceClosed
  have copyKnown : ∀ id, copy.kind? id ≠ some .unknown := isCopy.kind?_ne_unknown known
  refine ⟨isCopy.holds_origin, ?_, ?_, ?_, ?_, ?_, ?_⟩
  · intro arena first second firstHeld secondHeld same
    rw [← isCopy.via_origin first firstHeld, same, isCopy.via_origin second secondHeld]
  · obtain ⟨table, isTable, -⟩ := LayoutTable.exists_ofGraph copyKnown
    obtain ⟨original, isOriginal, -⟩ := LayoutTable.exists_ofGraph known
    exact ⟨⟨table, isTable⟩, original, isOriginal⟩
  · intro arithmetic table original isTable isOriginal id held grounded
    have inTable := (LayoutTable.shape_foldlM isTable).1
    have inOriginal := (LayoutTable.shape_foldlM isOriginal).1
    exact (mirrors.extentOfId_eq (inOriginal.trans inTable.symm)
      (fun _ _ => LayoutTable.solved_of_ofGraph isTable)
      (fun _ _ => LayoutTable.solved_of_ofGraph isOriginal) held grounded).symm
  · intro id held grounded
    have heldType : ∀ other, TypeRef.defined id = .defined other → copy.Holds other.item := by
      rintro _ ⟨⟩
      exact held
    obtain ⟨flat, isFlat⟩ := closed.exists_pushType copyKnown heldType grounded #[]
    have isForm : copy.flat (.defined id) = .ok flat.toList :=
      Success.bind_return_eq_ok_iff.mpr ⟨flat, isFlat, rfl⟩
    exact ⟨_, isForm, (mirrors.flat_eq heldType grounded).trans isForm⟩
  · intro id held grounded
    exact ⟨(mirrors.hasPointer_eq held grounded).symm, (mirrors.hasBorrow_eq held grounded).symm,
      (mirrors.hasResource_eq held grounded).symm⟩
  · intro place function found grounded
    have held : ∀ id, .defined id ∈ function.types → copy.Holds id.item := fun id mentioned =>
      closed place.container _
        (mem_links_of_function? found (Function.mem_mentionedIds_iff.mpr (Or.inr mentioned)))
    refine ⟨isCopy.function?_origin closed found, fun side => ?_⟩
    obtain ⟨signature, isSignature⟩ := closed.exists_signature copyKnown held grounded side
    exact ⟨signature, isSignature, (mirrors.signature_eq held grounded side).trans isSignature⟩

/-- **Pruning keeps the ABI of what it keeps**, whatever the target. -/
theorem pruneTo_keepsAbi {graph : Graph} (isRead : graph.IsRead) (target : Node) :
    ∃ origin via : Renaming, (graph.pruneTo target).IsCopyOf graph origin via
      ∧ (graph.pruneTo target).KeepsAbi graph origin := by
  have linked := wellLinked_of_isRead isRead
  obtain ⟨origin, via, isCopy⟩ := linked.exists_isCopyOf target
  have closed := linked.isClosed_pruneTo target
  exact ⟨origin, via, isCopy, isCopy.keepsAbi closed linked.closed linked.known⟩

/-- The graph of the document, pruned to its method, still has the method, which reaches no circle
although the interface has circular types. -/
theorem isGroundedType_read_pruned :
    let pruned := Sample.graph.pruneTo (.function (.interface ⟨0⟩ "[method]blob.read"))
    pruned.function? (.interface ⟨0⟩ "[method]blob.read") = some Sample.read
      ∧ ∀ type ∈ Sample.read.types, pruned.IsGroundedType type := by
  intro pruned
  have resource : pruned.IsGrounded ⟨2⟩ := by
    have none : pruned.directIds ⟨2⟩ = [] := by decide +kernel
    exact isGrounded_of_directIds fun other member => by simp [none] at member
  have handle : pruned.IsGrounded ⟨3⟩ := by
    have refersTo : pruned.directIds ⟨3⟩ = [⟨2⟩] := by decide +kernel
    refine isGrounded_of_directIds fun other member => ?_
    rw [refersTo, List.mem_singleton] at member
    exact member ▸ resource
  refine ⟨by decide +kernel, fun type member => ?_⟩
  have types : Sample.read.types = [.defined ⟨3⟩, .primitive .u8] := rfl
  simp only [types, List.mem_cons, List.not_mem_nil, or_false] at member
  rcases member with rfl | rfl
  · exact handle
  · trivial

/-- The method has the same core signatures in the document's graph and in the part of it that is
related to the method. -/
theorem pruneTo_keepsAbi_method :
    let place : FunctionPlace := .interface ⟨0⟩ "[method]blob.read"
    let pruned := Sample.graph.pruneTo (.function place)
    Sample.graph.IsRead ∧ pruned.function? place = some Sample.read
      ∧ ∃ origin via : Renaming, pruned.IsCopyOf Sample.graph origin via
        ∧ Sample.graph.function? (place.rename origin) = some (Sample.read.rename origin)
        ∧ ∀ side, ∃ signature, pruned.signature side Sample.read = .ok signature
          ∧ Sample.graph.signature side (Sample.read.rename origin) = .ok signature := by
  intro place pruned
  have isRead : Sample.graph.IsRead := ⟨_, Sample.accepted⟩
  obtain ⟨found, grounded⟩ := isGroundedType_read_pruned
  obtain ⟨origin, via, isCopy, keeps⟩ := pruneTo_keepsAbi isRead (.function place)
  exact ⟨isRead, found, origin, via, isCopy, keeps.signatures place Sample.read found grounded⟩

end Graph

end WitGraph
