/-
**The layout of a graph solves its equations.**

A layout is filled in one pass, each type from the extents that stand in the table at that time. The
entry of a type is computed when it is its turn (`exists_turn`); from then on it stays as it is, and
until then it is that of nothing. Before a grounded type, everything that it refers to has had its turn,
and `calculate` reads the extents of such types alone (`calculate_congr`). So the extent of a grounded
type is what `calculate` gives for its kind on the finished table (`exists_ofGraph`). Circular types
elsewhere in the graph do not matter.

With natural numbers the pass succeeds if all kinds are known. In words a sum can be too large, so what is
said here of a layout holds wherever there is one.
-/

import WitGraph.Layout.Table
import WitGraph.Proofs.Grounded
import WitGraph.Proofs.Renaming
import WitGraph.Proofs.Success

namespace WitGraph

/-! ### What values contain -/

namespace Kind

/-- The types whose values are stored within a value of the kind. -/
def parts : TypeKind → List TypeRef
  | .record fields => fields.map Field.type
  | .tuple types => types
  | .variant cases => cases.filterMap Case.type
  | .option payload => [payload]
  | .result ok err => ok.toList ++ err.toList
  | .synonym target => [target]
  | _ => []

theorem parts_subset_mentions (kind : TypeKind) : kind.parts ⊆ kind.mentions := by
  cases kind with
  | own _ | borrow _ | list _ | future _ | stream _ | pointer _ => exact List.nil_subset _
  | _ => exact fun _ member => member

theorem parts_rename {via : Renaming} (kind : TypeKind) :
    (kind.rename via).parts = kind.parts.map (TypeRef.rename via) := by
  cases kind <;>
    simp [rename, parts, Option.toList_map, List.filterMap_map, List.map_filterMap, Function.comp_def]

end Kind

namespace LayoutTable

variable {graph : Graph} {table other : LayoutTable} {id : TypeId} {kind : TypeKind}
  {via : Renaming}

/-! ### What `calculate` reads -/

theorem variant_rename (arithmetic : other.arithmetic = table.arithmetic)
    {types : List (Option TypeRef)}
    (same : ∀ type, some type ∈ types → other.extent (type.rename via) = table.extent type) :
    other.variant (types.map (Option.map (TypeRef.rename via))) = table.variant types := by
  have payloads : other.payloads (types.map (Option.map (TypeRef.rename via)))
      = table.payloads types := by
    rw [LayoutTable.payloads, LayoutTable.payloads, TypeRef.filterMap_map_rename, List.map_map]
    refine List.map_congr_left fun type member => ?_
    obtain ⟨_, listed, rfl⟩ := List.mem_filterMap.mp member
    exact same type listed
  rw [variant, variant, payloads, List.length_map, arithmetic]

/-- A renamed kind has the extent of the kind if the types that its values contain keep theirs. -/
theorem calculate_rename (arithmetic : other.arithmetic = table.arithmetic)
    (same : ∀ type ∈ kind.parts, other.extent (type.rename via) = table.extent type) :
    other.calculate (kind.rename via) = table.calculate kind := by
  cases kind with
  | synonym target => exact congrArg Except.ok (same target (List.mem_singleton_self target))
  | flags labels => rw [Kind.rename, calculate, calculate, arithmetic]
  | record fields =>
    have fieldExtents :
        (fields.map fun field => { field with type := field.type.rename via }).map
            (fun field => other.extent field.type)
          = fields.map fun field => table.extent field.type := by
      rw [List.map_map]
      exact List.map_congr_left fun field member => same field.type (List.mem_map_of_mem member)
    rw [Kind.rename, calculate, calculate, fieldExtents, arithmetic]
  | tuple types =>
    have typeExtents : (types.map (TypeRef.rename via)).map other.extent
        = types.map table.extent := by
      rw [List.map_map]
      exact List.map_congr_left same
    rw [Kind.rename, calculate, calculate, typeExtents, arithmetic]
  | variant cases =>
    rw [Kind.rename, calculate, calculate, Kind.map_type_rename]
    refine variant_rename arithmetic fun type member => same type ?_
    obtain ⟨case, isCase, isType⟩ := List.mem_map.mp member
    exact List.mem_filterMap.mpr ⟨case, isCase, isType⟩
  | enum cases =>
    have sameVariant : other.variant ((cases.map fun _ => none).map (Option.map (TypeRef.rename via)))
        = table.variant (cases.map fun _ => none) :=
      variant_rename arithmetic fun type member => by simp at member
    rw [Kind.map_none_rename] at sameVariant
    exact sameVariant
  | option payload =>
    show other.variant ([none, some payload].map (Option.map (TypeRef.rename via))) = _
    exact variant_rename arithmetic fun type member =>
      same type (by simpa [Kind.parts] using member)
  | result ok err =>
    show other.variant ([ok, err].map (Option.map (TypeRef.rename via))) = _
    exact variant_rename arithmetic fun type member =>
      same type (by simpa [Kind.parts, eq_comm] using member)
  | _ => rfl

/-- Tables that agree on what the values of a kind contain give it the same extent. -/
theorem calculate_congr (arithmetic : other.arithmetic = table.arithmetic)
    (same : ∀ id, .defined id ∈ kind.parts → other.extentOfId id = table.extentOfId id) :
    other.calculate kind = table.calculate kind := by
  have renamed : other.calculate (kind.rename fun id => id) = table.calculate kind := by
    refine calculate_rename arithmetic fun type member => ?_
    cases type with
    | primitive _ => rfl
    | defined id => exact same id member
  rwa [Kind.rename_self] at renamed

/-! ### Natural numbers -/

theorem exists_record_exact (fields : List Extent) : ∃ extent, Extent.record .exact fields = .ok extent := by
  have each : ∀ field ∈ fields, ∀ before, ∃ next, Extent.place .exact before field = .ok next :=
    fun _ _ _ => ⟨_, rfl⟩
  obtain ⟨placed, isPlaced⟩ := Success.exists_foldlM each .empty
  exact ⟨_, Success.bind_eq_ok_iff.mpr ⟨placed, isPlaced, rfl⟩⟩

theorem exists_ofFlags_exact (flags : Nat) : ∃ extent, Extent.ofFlags .exact flags = .ok extent := by
  unfold Extent.ofFlags FlagsShape.ofCount
  split
  · exact ⟨_, rfl⟩
  · split <;> exact ⟨_, rfl⟩

/-- With natural numbers, every known kind has an extent. -/
theorem exists_calculate (inNumbers : table.arithmetic = .exact) (known : kind ≠ .unknown) :
    ∃ extent, table.calculate kind = .ok extent := by
  have variant (types : List (Option TypeRef)) : ∃ extent, table.variant types = .ok extent := by
    rw [LayoutTable.variant, inNumbers]
    exact ⟨_, rfl⟩
  cases kind with
  | unknown => exact absurd rfl known
  | record fields | tuple types =>
    rw [calculate, inNumbers]
    exact exists_record_exact _
  | flags labels =>
    rw [calculate, inNumbers]
    exact exists_ofFlags_exact _
  | variant | enum | option | result => exact variant _
  | _ => exact ⟨_, rfl⟩

/-! ### Filling in one extent -/

/-- The table with another extent for one type. -/
def withExtent (table : LayoutTable) (id : TypeId) (extent : Extent) : LayoutTable :=
  { table with extents := table.extents.setIfInBounds id.index extent }

theorem extentOfId_withExtent_self {extent : Extent} (inside : id.index < table.extents.size) :
    (table.withExtent id extent).extentOfId id = extent := by
  simp [extentOfId, withExtent, inside]

theorem extentOfId_withExtent_of_ne {extent : Extent} {different : TypeId} (differ : different ≠ id) :
    (table.withExtent id extent).extentOfId different = table.extentOfId different := by
  have apart : id.index ≠ different.index := fun same => differ (Numbered.injective same.symm)
  simp [extentOfId, withExtent, Array.getElem?_setIfInBounds_ne apart]

theorem enter_of_kind? {extent : Extent} (found : graph.kind? id = some kind)
    (isExtent : table.calculate kind = .ok extent) :
    enter graph table id = .ok (table.withExtent id extent) := by
  simp only [enter, found, isExtent]
  rfl

/-- What a step does: nothing for a type that is not in the graph, and otherwise it computes one entry. -/
theorem enter_cases {after : LayoutTable} (entered : enter graph table id = .ok after) :
    (graph.kind? id = none ∧ after = table)
      ∨ ∃ kind extent, graph.kind? id = some kind ∧ table.calculate kind = .ok extent
        ∧ after = table.withExtent id extent := by
  unfold enter at entered
  split at entered
  · rename_i absent
    cases entered
    exact Or.inl ⟨absent, rfl⟩
  · rename_i kind found
    obtain ⟨extent, isExtent, rfl⟩ := Success.bind_return_eq_ok_iff.mp entered
    exact Or.inr ⟨kind, extent, found, isExtent, rfl⟩

theorem exists_enter (known : ∀ id, graph.kind? id ≠ some .unknown)
    (inNumbers : table.arithmetic = .exact) (id : TypeId) :
    ∃ after, enter graph table id = .ok after ∧ after.arithmetic = .exact := by
  cases found : graph.kind? id with
  | none => exact ⟨table, by simp only [enter, found], inNumbers⟩
  | some kind =>
    have isKnown : kind ≠ .unknown := fun unknown => known id (unknown ▸ found)
    obtain ⟨extent, isExtent⟩ := exists_calculate inNumbers isKnown
    exact ⟨_, enter_of_kind? found isExtent, inNumbers⟩

theorem extentOfId_enter_of_ne {after : LayoutTable} {other : TypeId}
    (entered : enter graph table id = .ok after) (differ : other ≠ id) :
    after.extentOfId other = table.extentOfId other := by
  rcases enter_cases entered with ⟨-, rfl⟩ | ⟨_, _, -, -, rfl⟩
  · rfl
  · exact extentOfId_withExtent_of_ne differ

/-! ### Filling in all extents -/

section Runs

variable {arithmetic : Arithmetic} {final : LayoutTable} {ids : List TypeId}

/-- A run keeps the arithmetic and the number of entries. -/
theorem shape_foldlM (run : ids.foldlM (enter graph) table = .ok final) :
    final.arithmetic = table.arithmetic ∧ final.extents.size = table.extents.size := by
  induction ids generalizing table with
  | nil =>
    cases run
    exact ⟨rfl, rfl⟩
  | cons first rest ih =>
    rw [List.foldlM_cons] at run
    obtain ⟨next, isNext, later⟩ := Success.bind_eq_ok_iff.mp run
    obtain ⟨sameArithmetic, sameSize⟩ := ih later
    rcases enter_cases isNext with ⟨-, rfl⟩ | ⟨_, _, -, -, rfl⟩
    · exact ⟨sameArithmetic, sameSize⟩
    · exact ⟨sameArithmetic, sameSize.trans (Array.size_setIfInBounds ..)⟩

/-- A run keeps the entries of all types that it does not come to. -/
theorem extentOfId_foldlM_of_not_mem (run : ids.foldlM (enter graph) table = .ok final)
    (absent : id ∉ ids) : final.extentOfId id = table.extentOfId id := by
  induction ids generalizing table with
  | nil =>
    cases run
    rfl
  | cons first rest ih =>
    rw [List.foldlM_cons] at run
    obtain ⟨next, isNext, later⟩ := Success.bind_eq_ok_iff.mp run
    rw [ih later (fun inRest => absent (List.mem_cons_of_mem _ inRest))]
    exact extentOfId_enter_of_ne isNext fun same => absent (same ▸ List.mem_cons_self ..)

/-- **The entry of a type is computed when it is its turn**, and does not change after that. -/
theorem calculate_of_foldlM (run : (id :: ids).foldlM (enter graph) table = .ok final) (once : id ∉ ids)
    (size : table.extents.size = graph.types.size) (found : graph.kind? id = some kind) :
    table.calculate kind = .ok (final.extentOfId id) := by
  rw [List.foldlM_cons] at run
  obtain ⟨next, isNext, later⟩ := Success.bind_eq_ok_iff.mp run
  rw [extentOfId_foldlM_of_not_mem later once]
  rcases enter_cases isNext with ⟨absent, -⟩ | ⟨_, extent, isKind, isExtent, rfl⟩
  · exact absurd (absent.symm.trans found) (Option.some_ne_none kind).symm
  · cases isKind.symm.trans found
    have inside : id.index < table.extents.size := by
      rw [size]
      exact Graph.holds_of_kind? found
    rw [isExtent, extentOfId_withExtent_self inside]

/-- What stands in the table when a type has its turn: the final entries of the types that had theirs
before it, and nothing for all others. From this its own entry is computed. -/
structure IsTurn (graph : Graph) (arithmetic : Arithmetic) (final : LayoutTable) (id : TypeId)
    (before after : List TypeId) (table : LayoutTable) : Prop where
  split : graph.typeOrder = before ++ id :: after
  once : id ∉ before
  run : before.foldlM (enter graph) (blank arithmetic graph) = .ok table
  computed : ∀ kind, graph.kind? id = some kind → table.calculate kind = .ok (final.extentOfId id)
  done : ∀ other ∈ before, final.extentOfId other = table.extentOfId other
  pending : ∀ other ∉ before, table.extentOfId other = .empty

theorem isTurn_of_split {before after : List TypeId} (filled : ofGraph arithmetic graph = .ok final)
    (split : graph.typeOrder = before ++ id :: after)
    (run : before.foldlM (enter graph) (blank arithmetic graph) = .ok table) :
    IsTurn graph arithmetic final id before after table := by
  have once := graph.postordered_typeOrder.1
  rw [split] at once
  obtain ⟨-, distinct, apart⟩ := List.nodup_append.mp once
  rw [ofGraph, split, List.foldlM_append, run] at filled
  refine ⟨split, fun isEarlier => apart id isEarlier id (List.mem_cons_self ..) rfl, run,
    fun kind found => ?_, fun other member => ?_, fun other absent => ?_⟩
  · refine calculate_of_foldlM filled (List.nodup_cons.mp distinct).1 ?_ found
    exact (shape_foldlM run).2.trans Array.size_replicate
  · exact extentOfId_foldlM_of_not_mem filled fun isLater => apart other member other isLater rfl
  · rw [extentOfId_foldlM_of_not_mem run absent, blank, extentOfId, Array.getElem?_replicate]
    split <;> rfl

/-- Every type of the graph has its turn. -/
theorem exists_turn (filled : ofGraph arithmetic graph = .ok final) (held : graph.Holds id.item) :
    ∃ before after table, IsTurn graph arithmetic final id before after table := by
  obtain ⟨before, after, split⟩ := List.append_of_mem (Graph.mem_typeOrder_of_holds held)
  have runs := filled
  rw [ofGraph, split, List.foldlM_append] at runs
  obtain ⟨table, run, -⟩ := Success.bind_eq_ok_iff.mp runs
  exact ⟨before, after, table, isTurn_of_split filled split run⟩

/-- Whatever table has been filled in for a graph, grounded types have the extents of their kinds. -/
theorem solved_of_ofGraph (filled : ofGraph arithmetic graph = .ok final)
    (found : graph.kind? id = some kind) (grounded : graph.IsGrounded id) :
    final.calculate kind = .ok (final.extentOfId id) := by
  obtain ⟨before, after, table, turn⟩ := exists_turn filled (Graph.holds_of_kind? found)
  rw [← turn.computed kind found]
  have arithmetics := (shape_foldlM filled).1.trans (shape_foldlM turn.run).1.symm
  refine calculate_congr arithmetics fun other part => turn.done other ?_
  -- what a grounded type refers to has had its turn
  have follows := Graph.mem_directIds_of_mentions found (kind.parts_subset_mentions part)
  exact Graph.mem_of_split_typeOrder turn.split follows (grounded.not_reaches follows)

/-- With natural numbers, any types can be filled in one after another. -/
theorem exists_foldlM_enter (known : ∀ id, graph.kind? id ≠ some .unknown)
    (inNumbers : table.arithmetic = .exact) (ids : List TypeId) :
    ∃ final, ids.foldlM (enter graph) table = .ok final := by
  induction ids generalizing table with
  | nil => exact ⟨table, rfl⟩
  | cons first rest ih =>
    obtain ⟨next, isNext, nextInNumbers⟩ := exists_enter known inNumbers first
    obtain ⟨final, run⟩ := ih nextInNumbers
    refine ⟨final, ?_⟩
    rw [List.foldlM_cons, isNext]
    exact run

/-- **The layout of a graph with natural numbers gives every grounded type the extent of its kind.** -/
theorem exists_ofGraph (known : ∀ id, graph.kind? id ≠ some .unknown) :
    ∃ table, ofGraph .exact graph = .ok table ∧ table.arithmetic = .exact
      ∧ ∀ id kind, graph.kind? id = some kind → graph.IsGrounded id →
          table.calculate kind = .ok (table.extentOfId id) := by
  obtain ⟨table, filled⟩ :=
    exists_foldlM_enter known (show (blank .exact graph).arithmetic = .exact from rfl) graph.typeOrder
  exact ⟨table, filled, (shape_foldlM filled).1, fun _ _ => solved_of_ofGraph filled⟩

end Runs

end LayoutTable

end WitGraph
