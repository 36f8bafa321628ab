/-
**Flat forms and traits of grounded types.**

The flat form and the traits of a type are computed by going through at most as many definitions as
there are. For a grounded type that reaches nothing outside the graph this limit is never met:
`pushType_eq`, `mentionsWithin_eq` and `typeRoot_synonym` are the recursive equations without it. With
known kinds, such a type has a flat form (`IsFlattenable.exists_pushType`).

`Kind.pushFlat_rename` says that pushing a renamed kind pushes what the kind does, if this is so for
the types that it mentions.
-/

import WitGraph.Abi.Signature
import WitGraph.Abi.Traits
import WitGraph.Proofs.Grounded
import WitGraph.Proofs.Renaming
import WitGraph.Proofs.Success

namespace WitGraph

/-! ### Pushing a kind -/

namespace Kind

variable {push other : PushRef} {via : Renaming} {kind : TypeKind} {payloads : List (Option TypeRef)}

theorem pushPayloads_rename {types : List TypeRef}
    (same : ∀ type ∈ types, ∀ flat, other flat (type.rename via) = push flat type) (start : Nat)
    (flat : FlatForm) :
    pushPayloads other start flat (types.map (TypeRef.rename via))
      = pushPayloads push start flat types :=
  Success.foldlM_map_congr (fun type member flat => by rw [same type member]) flat

theorem pushCases_rename
    (same : ∀ type, some type ∈ payloads → ∀ flat, other flat (type.rename via) = push flat type)
    (flat : FlatForm) :
    pushCases other flat (payloads.map (Option.map (TypeRef.rename via)))
      = pushCases push flat payloads := by
  rw [pushCases, pushCases, TypeRef.filterMap_map_rename, List.length_map]
  refine pushPayloads_rename (fun type member => same type ?_) _ _
  obtain ⟨_, listed, rfl⟩ := List.mem_filterMap.mp member
  exact listed

/-- Pushing a renamed kind pushes what the kind does. -/
theorem pushFlat_rename
    (same : ∀ type ∈ kind.mentions, ∀ flat, other flat (type.rename via) = push flat type)
    (flat : FlatForm) : (kind.rename via).pushFlat other flat = kind.pushFlat push flat := by
  cases kind with
  | synonym target => exact same target (List.mem_singleton_self target) flat
  | record fields =>
    exact Success.foldlM_map_congr
      (fun field member flat => same field.type (List.mem_map_of_mem member) flat) flat
  | tuple types => exact Success.foldlM_map_congr same flat
  | variant cases =>
    rw [rename, pushFlat, pushFlat, map_type_rename]
    refine pushCases_rename (fun type member => same type ?_) flat
    obtain ⟨case, isCase, isType⟩ := List.mem_map.mp member
    exact List.mem_filterMap.mpr ⟨case, isCase, isType⟩
  | enum cases =>
    have pushed : pushCases other flat ((cases.map fun _ => none).map (Option.map (TypeRef.rename via)))
        = pushCases push flat (cases.map fun _ => none) :=
      pushCases_rename (fun type member => by simp at member) flat
    rwa [map_none_rename] at pushed
  | option payload =>
    show pushCases other flat ([none, some payload].map (Option.map (TypeRef.rename via))) = _
    refine pushCases_rename (fun type member => same type ?_) flat
    simpa [mentions] using member
  | result ok err =>
    show pushCases other flat ([ok, err].map (Option.map (TypeRef.rename via))) = _
    refine pushCases_rename (fun type member => same type ?_) flat
    simpa [mentions, eq_comm] using member
  | _ => rfl

/-- A kind is pushed alike by what pushes the types that it mentions alike. -/
theorem pushFlat_congr (same : ∀ type ∈ kind.mentions, ∀ flat, other flat type = push flat type)
    (flat : FlatForm) : kind.pushFlat other flat = kind.pushFlat push flat := by
  have renamed : (kind.rename fun id => id).pushFlat other flat = kind.pushFlat push flat :=
    pushFlat_rename (fun type member => by rw [type.rename_self]; exact same type member) flat
  rwa [rename_self] at renamed

/-- A kind is pushed like the record or variant that it is laid out like. -/
theorem pushFlat_despecialize (push : PushRef) (flat : FlatForm) (kind : TypeKind) :
    kind.despecialize.pushFlat push flat = kind.pushFlat push flat := by
  cases kind with
  | tuple types =>
    show (positionalFields types).foldlM (fun flat field => push flat field.type) flat
      = types.foldlM push flat
    rw [← congrArg (List.foldlM push flat) (map_type_positionalFields types), List.foldlM_map]
  | enum cases => simp [despecialize, pushFlat, bareCase, Function.comp_def]
  | _ => rfl

theorem exists_pushCases
    (each : ∀ type, some type ∈ payloads → ∀ flat, ∃ after, push flat type = .ok after)
    (flat : FlatForm) : ∃ after, pushCases push flat payloads = .ok after := by
  refine Success.exists_foldlM (fun type member flat => ?_) _
  obtain ⟨_, listed, rfl⟩ := List.mem_filterMap.mp member
  obtain ⟨slots, isPushed⟩ := each type listed #[]
  exact ⟨_, Success.bind_return_eq_ok_iff.mpr ⟨slots, isPushed, rfl⟩⟩

/-- A known kind can be pushed if the types that it mentions can. -/
theorem exists_pushFlat (known : kind ≠ .unknown)
    (each : ∀ type ∈ kind.mentions, ∀ flat, ∃ after, push flat type = .ok after) (flat : FlatForm) :
    ∃ after, kind.pushFlat push flat = .ok after := by
  cases kind with
  | unknown => exact absurd rfl known
  | synonym target => exact each target (List.mem_singleton_self target) flat
  | record fields =>
    exact Success.exists_foldlM
      (fun field member flat => each field.type (List.mem_map_of_mem member) flat) flat
  | tuple types => exact Success.exists_foldlM each flat
  | variant cases =>
    refine exists_pushCases (fun type member => each type ?_) flat
    obtain ⟨case, isCase, isType⟩ := List.mem_map.mp member
    exact List.mem_filterMap.mpr ⟨case, isCase, isType⟩
  | enum cases => exact exists_pushCases (fun type member => by simp at member) flat
  | option payload =>
    refine exists_pushCases (fun type member => each type ?_) flat
    simpa [mentions] using member
  | result ok err =>
    refine exists_pushCases (fun type member => each type ?_) flat
    simpa [mentions, eq_comm] using member
  | _ => exact ⟨_, rfl⟩

end Kind

/-! ### Flat forms without a limit -/

namespace Graph

variable {graph : Graph} {id : TypeId} {kind : TypeKind}

theorem pushRef_primitive (depth : Nat) (flat : FlatForm) (type : Primitive) :
    graph.pushRef depth flat (.primitive type) = .ok (flat.pushPrimitive type) := by
  cases depth <;> rfl

/-- Going through more definitions than needed changes nothing. -/
theorem IsContained.pushRef_eq {rank : TypeId → Nat}
    (falls : ∀ id, graph.IsContained id → graph.IsGrounded id →
      ∀ other ∈ graph.directIds id, rank other < rank id)
    (contained : graph.IsContained id) (grounded : graph.IsGrounded id) {first second : Nat}
    (isFirst : rank id < first) (isSecond : rank id < second) (flat : FlatForm) :
    graph.pushRef first flat (.defined id) = graph.pushRef second flat (.defined id) := by
  induction first generalizing second id flat with
  | zero => exact absurd isFirst (Nat.not_lt_zero _)
  | succ first ih =>
    obtain _ | second := second
    · exact absurd isSecond (Nat.not_lt_zero _)
    cases found : graph.kind? id with
    | none => simp only [pushRef, found]
    | some kind =>
      simp only [pushRef, found]
      refine Kind.pushFlat_congr (fun type member flat => ?_) flat
      cases type with
      | primitive type => rw [pushRef_primitive, pushRef_primitive]
      | defined other =>
        have direct := mem_directIds_of_mentions found member
        have lower := falls id contained grounded other direct
        exact ih (contained.of_mem direct) (grounded.of_mem direct) (by omega) (by omega) flat

/-- **A grounded type is pushed as its kind is**, if it reaches nothing outside the graph. -/
theorem IsContained.pushType_eq (contained : graph.IsContained id) (grounded : graph.IsGrounded id)
    (found : graph.kind? id = some kind) (flat : FlatForm) :
    graph.pushType flat (.defined id) = kind.pushFlat graph.pushType flat := by
  obtain ⟨rank, bounded, falls⟩ := graph.exists_rank
  have enough : rank id < graph.types.size := bounded id contained.held
  calc graph.pushType flat (.defined id)
      = graph.pushRef (graph.types.size + 1) flat (.defined id) :=
        contained.pushRef_eq falls grounded enough (Nat.lt_succ_of_lt enough) flat
    _ = kind.pushFlat graph.pushType flat := by
        simp only [pushRef, found]
        rfl

theorem IsClosed.pushType_eq (closed : graph.IsClosed) (grounded : graph.IsGrounded id)
    (found : graph.kind? id = some kind) (flat : FlatForm) :
    graph.pushType flat (.defined id) = kind.pushFlat graph.pushType flat :=
  (closed.isContained (holds_of_kind? found)).pushType_eq grounded found flat

/-- Everything that the definition reaches is in the graph, of a known kind and on no circle. -/
structure IsFlattenable (graph : Graph) (id : TypeId) : Prop where
  contained : graph.IsContained id
  known : ∀ other, Search.Reaches graph.directIds id other → graph.kind? other ≠ some .unknown
  grounded : graph.IsGrounded id

/-- What a flattenable type refers to is flattenable. -/
theorem IsFlattenable.of_mem (flattenable : graph.IsFlattenable id) {other : TypeId}
    (member : other ∈ graph.directIds id) : graph.IsFlattenable other where
  contained := flattenable.contained.of_mem member
  known last path := flattenable.known last (.head member path)
  grounded := flattenable.grounded.of_mem member

/-- **Every flattenable type has a flat form.** -/
theorem IsFlattenable.exists_pushType (flattenable : graph.IsFlattenable id) (flat : FlatForm) :
    ∃ after, graph.pushType flat (.defined id) = .ok after := by
  have known := flattenable.contained.grounded_induction
    (motive := fun id => graph.IsFlattenable id →
      ∀ flat, ∃ after, graph.pushType flat (.defined id) = .ok after)
    (fun id kind found grounded ih flattenable flat => ?_) flattenable.grounded
  · exact known flattenable flat
  rw [flattenable.contained.pushType_eq grounded found]
  refine Kind.exists_pushFlat (fun unknown => flattenable.known id .refl (unknown ▸ found)) ?_ flat
  intro type member flat
  cases type with
  | primitive type => exact ⟨_, pushRef_primitive _ flat type⟩
  | defined other =>
    exact ih other member (flattenable.of_mem (mem_directIds_of_mentions found member)) flat

/-- The type is primitive, or its definition is flattenable. -/
def IsFlattenableType (graph : Graph) : TypeRef → Prop
  | .primitive _ => True
  | .defined id => graph.IsFlattenable id

theorem IsFlattenableType.exists_pushType {type : TypeRef} (flattenable : graph.IsFlattenableType type)
    (flat : FlatForm) : ∃ after, graph.pushType flat type = .ok after := by
  cases type with
  | primitive type => exact ⟨_, pushRef_primitive _ flat type⟩
  | defined id => exact IsFlattenable.exists_pushType flattenable flat

/-- Every grounded type of a closed graph has a flat form, if kinds are known. -/
theorem IsClosed.exists_pushType (closed : graph.IsClosed)
    (known : ∀ id, graph.kind? id ≠ some .unknown) {type : TypeRef}
    (held : ∀ id, type = .defined id → graph.Holds id.item) (grounded : graph.IsGroundedType type)
    (flat : FlatForm) : ∃ after, graph.pushType flat type = .ok after := by
  refine IsFlattenableType.exists_pushType ?_ flat
  cases type with
  | primitive type => trivial
  | defined id => exact ⟨closed.isContained (held id rfl), fun other _ => known other, grounded⟩

/-- Grounded types have flat forms together. -/
theorem IsClosed.exists_flatAll (closed : graph.IsClosed)
    (known : ∀ id, graph.kind? id ≠ some .unknown) {types : List TypeRef}
    (held : ∀ id, .defined id ∈ types → graph.Holds id.item)
    (grounded : ∀ type ∈ types, graph.IsGroundedType type) :
    ∃ entries, graph.flatAll types = .ok entries := by
  obtain ⟨flat, isFlat⟩ := Success.exists_foldlM (fun type member flat =>
    closed.exists_pushType known (fun id same => held id (same ▸ member)) (grounded type member) flat)
    #[]
  exact ⟨flat.toList, Success.bind_return_eq_ok_iff.mpr ⟨flat, isFlat, rfl⟩⟩

/-- **A function of grounded types has a core signature**, if kinds are known. -/
theorem IsClosed.exists_signature (closed : graph.IsClosed)
    (known : ∀ id, graph.kind? id ≠ some .unknown) {function : Function}
    (held : ∀ id, .defined id ∈ function.types → graph.Holds id.item)
    (grounded : ∀ type ∈ function.types, graph.IsGroundedType type) (side : AbiSide) :
    ∃ signature, graph.signature side function = .ok signature := by
  obtain ⟨params, areParams⟩ := closed.exists_flatAll known
    (fun id member => held id (List.mem_append_left _ member))
    fun type member => grounded type (List.mem_append_left _ member)
  obtain ⟨results, areResults⟩ := closed.exists_flatAll known
    (fun id member => held id (List.mem_append_right _ member))
    fun type member => grounded type (List.mem_append_right _ member)
  exact ⟨_, Success.bind_eq_ok_iff.mpr
    ⟨params, areParams, Success.bind_return_eq_ok_iff.mpr ⟨results, areResults, rfl⟩⟩⟩

/-! ### Traits without a limit -/

theorem any_congr_of_mem {α : Type} {list : List α} {test other : α → Bool}
    (same : ∀ element ∈ list, test element = other element) : list.any test = list.any other := by
  rw [Bool.eq_iff_iff, List.any_eq_true, List.any_eq_true]
  exact exists_congr fun element => and_congr_right fun member => by rw [same element member]

variable {primitives : Primitive → Bool} {kinds : TypeKind → Bool}

theorem mentionsWithin_primitive (depth : Nat) (type : Primitive) :
    graph.mentionsWithin primitives kinds depth (.primitive type) = primitives type := by
  cases depth <;> rfl

theorem IsContained.mentionsWithin_congr {rank : TypeId → Nat}
    (falls : ∀ id, graph.IsContained id → graph.IsGrounded id →
      ∀ other ∈ graph.directIds id, rank other < rank id)
    (contained : graph.IsContained id) (grounded : graph.IsGrounded id) {first second : Nat}
    (isFirst : rank id < first) (isSecond : rank id < second) :
    graph.mentionsWithin primitives kinds first (.defined id)
      = graph.mentionsWithin primitives kinds second (.defined id) := by
  induction first generalizing second id with
  | zero => exact absurd isFirst (Nat.not_lt_zero _)
  | succ first ih =>
    obtain _ | second := second
    · exact absurd isSecond (Nat.not_lt_zero _)
    cases found : graph.kind? id with
    | none => simp only [mentionsWithin, found]
    | some kind =>
      have same : kind.mentions.any (graph.mentionsWithin primitives kinds first)
          = kind.mentions.any (graph.mentionsWithin primitives kinds second) := by
        refine any_congr_of_mem fun type member => ?_
        cases type with
        | primitive type => rw [mentionsWithin_primitive, mentionsWithin_primitive]
        | defined other =>
          have direct := mem_directIds_of_mentions found member
          have lower := falls id contained grounded other direct
          exact ih (contained.of_mem direct) (grounded.of_mem direct) (by omega) (by omega)
      simp only [mentionsWithin, found, same]

/-- **A grounded type has a trait if its kind or a type that this mentions has it.** -/
theorem IsClosed.mentionsWithin_eq (closed : graph.IsClosed) (grounded : graph.IsGrounded id)
    (found : graph.kind? id = some kind) :
    graph.mentionsWithin primitives kinds graph.types.size (.defined id)
      = (kinds kind
          || kind.mentions.any (graph.mentionsWithin primitives kinds graph.types.size)) := by
  have contained := closed.isContained (holds_of_kind? found)
  obtain ⟨rank, bounded, falls⟩ := graph.exists_rank
  have enough : rank id < graph.types.size := bounded id contained.held
  rw [contained.mentionsWithin_congr falls grounded enough (Nat.lt_succ_of_lt enough)]
  simp only [mentionsWithin, found]

/-! ### Synonyms without a limit -/

/-- A type that is no synonym of a definition stands for itself. -/
theorem typeRootWithin_eq_self (isRoot : ∀ next, graph.kind? id ≠ some (.synonym (.defined next)))
    (steps : Nat) : graph.typeRootWithin steps id = id := by
  cases steps with
  | zero => rfl
  | succ steps =>
    unfold typeRootWithin
    split
    · rename_i next found
      exact absurd found (isRoot next)
    · rfl

theorem IsContained.typeRootWithin_congr {rank : TypeId → Nat}
    (falls : ∀ id, graph.IsContained id → graph.IsGrounded id →
      ∀ other ∈ graph.directIds id, rank other < rank id)
    (contained : graph.IsContained id) (grounded : graph.IsGrounded id) {first second : Nat}
    (isFirst : rank id < first) (isSecond : rank id < second) :
    graph.typeRootWithin first id = graph.typeRootWithin second id := by
  induction first generalizing second id with
  | zero => exact absurd isFirst (Nat.not_lt_zero _)
  | succ first ih =>
    obtain _ | second := second
    · exact absurd isSecond (Nat.not_lt_zero _)
    by_cases isSynonym : ∃ next, graph.kind? id = some (.synonym (.defined next))
    · obtain ⟨next, found⟩ := isSynonym
      have direct := mem_directIds_of_mentions found (List.mem_singleton_self _)
      have lower := falls id contained grounded next direct
      simp only [typeRootWithin, found]
      exact ih (contained.of_mem direct) (grounded.of_mem direct) (by omega) (by omega)
    · have isRoot := fun next found => isSynonym ⟨next, found⟩
      rw [typeRootWithin_eq_self isRoot, typeRootWithin_eq_self isRoot]

/-- **A grounded synonym of a definition stands for what the definition stands for.** -/
theorem IsClosed.typeRoot_synonym (closed : graph.IsClosed) (grounded : graph.IsGrounded id)
    {next : TypeId} (found : graph.kind? id = some (.synonym (.defined next))) :
    graph.typeRoot id = graph.typeRoot next := by
  have contained := closed.isContained (holds_of_kind? found)
  obtain ⟨rank, bounded, falls⟩ := graph.exists_rank
  have enough : rank id < graph.types.size := bounded id contained.held
  unfold typeRoot
  rw [contained.typeRootWithin_congr falls grounded enough (Nat.lt_succ_of_lt enough)]
  simp only [typeRootWithin, found]

end Graph

end WitGraph
