/-
**Types that reach no circle.**

A definition is grounded if nothing that it reaches leads back to itself. Only grounded types have a
layout and a flat form that follow from their kinds; the other types of the graph may be circular.

* `exists_split_typeOrder`: in the order of all types, a grounded type comes after everything that it
  refers to, wherever it stands in its arena;
* `exists_rank`: grounded types that reach nothing outside the graph have ranks below the number of types,
  and what a type refers to has a lower rank. So whatever goes from a type to what it refers to ends within
  that many steps. In a closed graph, nothing reaches outside.
-/

import Mathlib.Data.List.Perm.Subperm
import WitGraph.Liveness
import WitGraph.Proofs.Items
import WitGraph.Proofs.References
import WitGraph.Proofs.Search

namespace WitGraph.Graph

variable {graph : Graph} {id other : TypeId}

/-! ### References between types -/

theorem directIds_of_kind? {kind : TypeKind} (found : graph.kind? id = some kind) :
    graph.directIds id = kind.directIds := by
  rw [directIds, found]

theorem mem_directIds_of_mentions {kind : TypeKind} (found : graph.kind? id = some kind)
    (mentioned : .defined other ∈ kind.mentions) : other ∈ graph.directIds id := by
  rw [directIds_of_kind? found]
  exact Kind.mem_directIds_iff.mpr mentioned

theorem exists_of_mem_directIds (member : other ∈ graph.directIds id) :
    ∃ kind, graph.kind? id = some kind ∧ other ∈ kind.directIds := by
  unfold directIds at member
  split at member
  · cases member
  · rename_i kind found
    exact ⟨kind, found, member⟩

theorem exists_of_kind? {kind : TypeKind} (found : graph.kind? id = some kind) :
    ∃ type, graph.type? id = some type ∧ type.kind = kind :=
  Option.map_eq_some_iff.mp found

theorem holds_of_kind? {kind : TypeKind} (found : graph.kind? id = some kind) :
    graph.Holds id.item := by
  obtain ⟨type, isType, -⟩ := exists_of_kind? found
  exact (graph.holds_iff_entity? id.item).mpr ⟨type, isType⟩

theorem exists_kind? (held : graph.Holds id.item) : ∃ kind, graph.kind? id = some kind := by
  obtain ⟨type, found⟩ := (graph.holds_iff_entity? id.item).mp held
  exact ⟨type.kind, Option.map_eq_some_iff.mpr ⟨type, found, rfl⟩⟩

/-- What the types of a closed graph refer to is in the graph. -/
theorem IsClosed.holds_directId (closed : graph.IsClosed) (member : other ∈ graph.directIds id) :
    graph.Holds other.item := by
  obtain ⟨kind, found, member⟩ := exists_of_mem_directIds member
  obtain ⟨type, isType, rfl⟩ := exists_of_kind? found
  refine closed id.item other.item ?_
  have isEntity : graph.entity? id.item.id = some type := isType
  rw [links_of_entity? isEntity]
  exact List.mem_append_right _ (List.mem_map_of_mem member)

/-! ### Grounded types -/

/-- The definition refers to itself, perhaps through others. -/
def OnCircle (graph : Graph) (id : TypeId) : Prop :=
  Relation.TransGen (fun id other => other ∈ graph.directIds id) id id

/-- The definition reaches none that refers to itself. -/
def IsGrounded (graph : Graph) (id : TypeId) : Prop :=
  ∀ other, Search.Reaches graph.directIds id other → ¬ graph.OnCircle other

/-- What a grounded type refers to is grounded. -/
theorem IsGrounded.of_mem (grounded : graph.IsGrounded id) (member : other ∈ graph.directIds id) :
    graph.IsGrounded other :=
  fun last path => grounded last (.head member path)

/-- A type is grounded if all that it refers to is. -/
theorem isGrounded_of_directIds (each : ∀ other ∈ graph.directIds id, graph.IsGrounded other) :
    graph.IsGrounded id := by
  intro last path circle
  rcases Relation.ReflTransGen.cases_head path with rfl | ⟨first, member, rest⟩
  · obtain ⟨first, member, back⟩ := Relation.TransGen.head'_iff.mp circle
    exact each first member id back circle
  · exact each first member last rest circle

/-- What a grounded type refers to does not lead back to it. -/
theorem IsGrounded.not_reaches (grounded : graph.IsGrounded id) (member : other ∈ graph.directIds id) :
    ¬ Search.Reaches graph.directIds other id :=
  fun back => grounded id .refl (.head' member back)

/-- The type is primitive, or its definition is grounded. -/
def IsGroundedType (graph : Graph) : TypeRef → Prop
  | .primitive _ => True
  | .defined id => graph.IsGrounded id

theorem IsGrounded.of_mentions {kind : TypeKind} (grounded : graph.IsGrounded id)
    (found : graph.kind? id = some kind) {type : TypeRef} (member : type ∈ kind.mentions) :
    graph.IsGroundedType type := by
  cases type with
  | primitive _ => trivial
  | defined other => exact grounded.of_mem (mem_directIds_of_mentions found member)

/-! ### The order of all types -/

theorem mem_ids_of_directIds (some : graph.directIds id ≠ []) : id ∈ graph.ids .type := by
  obtain ⟨other, member⟩ := List.exists_mem_of_ne_nil _ some
  obtain ⟨kind, found, -⟩ := exists_of_mem_directIds member
  exact (graph.mem_ids_iff id).mpr (holds_of_kind? found)

/-- One more than the number of types is as deep as a search among them can go. -/
theorem length_ids_lt (graph : Graph) : (graph.ids .type).length < graph.types.size + 1 := by
  simp only [ids, List.length_map, List.length_range]
  exact Nat.lt_succ_self _

theorem postordered_typeOrder (graph : Graph) :
    graph.typeOrder.Nodup
      ∧ (∀ id, id ∈ graph.typeOrder
          ↔ ∃ root, graph.Holds root.item ∧ Search.Reaches graph.directIds root id)
      ∧ Search.Postordered graph.directIds (fun _ => False) graph.typeOrder.reverse := by
  obtain ⟨once, isFound, ordered⟩ := Search.postordered_visitAll
    (fun _ => graph.mem_ids_of_directIds) graph.length_ids_lt (graph.ids .type)
  refine ⟨List.nodup_reverse.mpr once, fun id => ?_, ?_⟩
  · refine List.mem_reverse.trans ((isFound id).trans ?_)
    simp only [mem_ids_iff]
  · rw [typeOrder, LiveTypes.order, List.reverse_reverse]
    exact ordered

theorem mem_typeOrder_of_holds (held : graph.Holds id.item) : id ∈ graph.typeOrder :=
  (graph.postordered_typeOrder.2.1 id).mpr ⟨id, held, .refl⟩

/-- What a type refers to stands before it, unless it leads back. -/
theorem mem_of_split_typeOrder {before after : List TypeId}
    (split : graph.typeOrder = before ++ id :: after) (member : other ∈ graph.directIds id)
    (apart : ¬ Search.Reaches graph.directIds other id) : other ∈ before := by
  obtain ⟨-, -, ordered⟩ := graph.postordered_typeOrder
  rw [split, List.reverse_append, List.reverse_cons, List.append_assoc, List.singleton_append]
    at ordered
  exact List.mem_reverse.mp (ordered.mem_of_not_reaches member apart)

theorem holds_of_mem_directIds (member : other ∈ graph.directIds id) : graph.Holds id.item :=
  (graph.mem_ids_iff id).mp (mem_ids_of_directIds (List.ne_nil_of_mem member))

theorem idxOf_typeOrder_lt (member : other ∈ graph.directIds id)
    (apart : ¬ Search.Reaches graph.directIds other id) :
    graph.typeOrder.idxOf other < graph.typeOrder.idxOf id := by
  obtain ⟨before, after, split⟩ :=
    List.append_of_mem (mem_typeOrder_of_holds (holds_of_mem_directIds member))
  have isBefore := mem_of_split_typeOrder split member apart
  have once := graph.postordered_typeOrder.1
  rw [split] at once ⊢
  exact Search.idxOf_lt_of_mem once isBefore

/-- The type that comes first in its arena stands behind everything that it reaches. -/
theorem idxOf_typeOrder_lt_first {first : TypeId} (isFirst : first.index = 0)
    (held : graph.Holds first.item) (path : Search.Reaches graph.directIds first id)
    (differ : id ≠ first) : graph.typeOrder.idxOf id < graph.typeOrder.idxOf first := by
  obtain ⟨rest, isRest⟩ : ∃ rest, graph.ids .type = first :: rest := by
    obtain ⟨index⟩ := first
    obtain rfl : index = 0 := isFirst
    obtain ⟨count, isCount⟩ : ∃ count, graph.size .type = count + 1 :=
      Nat.exists_eq_succ_of_ne_zero (Nat.ne_of_gt held)
    refine ⟨((List.range count).map Nat.succ).map Id.mk, ?_⟩
    rw [ids, isCount, List.range_succ_eq_map, List.map_cons]
  obtain ⟨late, early, finished, isEarly⟩ := Search.exists_finished_cons
    (fun _ => graph.mem_ids_of_directIds) graph.length_ids_lt first rest
  have order : graph.typeOrder = early.reverse ++ first :: late.reverse := by
    rw [typeOrder, LiveTypes.order, isRest]
    show (Search.visitAll graph.directIds (graph.types.size + 1) {} (first :: rest)).finished.reverse = _
    rw [finished, List.reverse_append, List.reverse_cons, List.append_assoc, List.singleton_append]
  have once := graph.postordered_typeOrder.1
  rw [order] at once ⊢
  exact Search.idxOf_lt_of_mem once (List.mem_reverse.mpr (isEarly id path differ))

/-- **A grounded type stands behind everything that it refers to.** -/
theorem exists_split_typeOrder (held : graph.Holds id.item) (grounded : graph.IsGrounded id) :
    ∃ before after, graph.typeOrder = before ++ id :: after
      ∧ ∀ other ∈ graph.directIds id, other ∈ before := by
  obtain ⟨before, after, split⟩ := List.append_of_mem (mem_typeOrder_of_holds held)
  exact ⟨before, after, split, fun other member =>
    mem_of_split_typeOrder split member (grounded.not_reaches member)⟩

/-! ### Ranks -/

/-- The definition is in the graph, and so is everything that it reaches. -/
def IsContained (graph : Graph) (id : TypeId) : Prop :=
  ∀ other, Search.Reaches graph.directIds id other → graph.Holds other.item

theorem IsContained.held (contained : graph.IsContained id) : graph.Holds id.item :=
  contained id .refl

/-- What a contained type refers to is contained. -/
theorem IsContained.of_mem (contained : graph.IsContained id) (member : other ∈ graph.directIds id) :
    graph.IsContained other :=
  fun last path => contained last (.head member path)

/-- The types of a closed graph reach nothing outside it. -/
theorem IsClosed.isContained (closed : graph.IsClosed) (held : graph.Holds id.item) :
    graph.IsContained id := by
  intro other path
  cases path with
  | refl => exact held
  | tail _ last => exact closed.holds_directId last

/-- **Grounded types that reach nothing outside the graph have ranks below the number of types.** -/
theorem exists_rank (graph : Graph) :
    ∃ rank : TypeId → Nat, (∀ id, graph.Holds id.item → rank id < graph.types.size)
      ∧ ∀ id, graph.IsContained id → graph.IsGrounded id →
        ∀ other ∈ graph.directIds id, rank other < rank id := by
  obtain ⟨once, -, -⟩ := graph.postordered_typeOrder
  -- ids without a definition may be listed as well, so the rank is the place among those that have one
  let held : TypeId → Bool := fun id => graph.Holds id.item
  refine ⟨fun id => (graph.typeOrder.filter held).idxOf id, fun id isHeld => ?_,
    fun id contained grounded other member => ?_⟩
  · have listed : (graph.typeOrder.filter held).length ≤ (graph.ids .type).length :=
      ((once.filter held).subperm fun other isListed =>
        (graph.mem_ids_iff other).mpr (by simpa [held] using (List.mem_filter.mp isListed).2)).length_le
    have count : (graph.ids .type).length = graph.types.size := by
      simp only [ids, List.length_map, List.length_range]
      rfl
    have member : id ∈ graph.typeOrder.filter held :=
      List.mem_filter.mpr ⟨mem_typeOrder_of_holds isHeld, by simpa [held] using isHeld⟩
    exact count ▸ Nat.lt_of_lt_of_le (List.idxOf_lt_length_of_mem member) listed
  · obtain ⟨before, after, split⟩ := List.append_of_mem (mem_typeOrder_of_holds contained.held)
    have isBefore := mem_of_split_typeOrder split member (grounded.not_reaches member)
    have filtered : graph.typeOrder.filter held = before.filter held ++ id :: after.filter held := by
      rw [split, List.filter_append, List.filter_cons_of_pos (by simpa [held] using contained.held)]
    have onceHeld := once.filter held
    show (graph.typeOrder.filter held).idxOf other < (graph.typeOrder.filter held).idxOf id
    rw [filtered] at onceHeld ⊢
    exact Search.idxOf_lt_of_mem onceHeld
      (List.mem_filter.mpr ⟨isBefore, by simpa [held] using (contained.of_mem member).held⟩)

/-- What holds of a type whenever it holds of all that its kind mentions holds of every grounded type
that reaches nothing outside the graph. -/
theorem IsContained.grounded_induction {motive : TypeId → Prop}
    (step : ∀ id kind, graph.kind? id = some kind → graph.IsGrounded id →
      (∀ other, .defined other ∈ kind.mentions → motive other) → motive id)
    (contained : graph.IsContained id) (grounded : graph.IsGrounded id) : motive id := by
  obtain ⟨rank, -, falls⟩ := graph.exists_rank
  induction known : rank id using Nat.strongRecOn generalizing id with
  | _ height ih =>
    obtain ⟨kind, found⟩ := exists_kind? contained.held
    refine step id kind found grounded fun other mentioned => ?_
    have direct := mem_directIds_of_mentions found mentioned
    exact ih (rank other) (known ▸ falls id contained grounded other direct) (contained.of_mem direct)
      (grounded.of_mem direct) rfl

/-- In a closed graph, that is every grounded type. -/
theorem IsClosed.grounded_induction (closed : graph.IsClosed) {motive : TypeId → Prop}
    (step : ∀ id kind, graph.kind? id = some kind → graph.IsGrounded id →
      (∀ other, .defined other ∈ kind.mentions → motive other) → motive id)
    {id : TypeId} (held : graph.Holds id.item) (grounded : graph.IsGrounded id) : motive id :=
  (closed.isContained held).grounded_induction step grounded

end WitGraph.Graph
