/-
**Graphs that mirror types of another graph.**

A graph mirrors another one if each of its types has the kind of a type there, with the ids renamed.
Where the original stands in its arena does not matter, nor what else the other graph holds. A grounded
type of the mirror then has the layout, the flat form and the traits of its original, and a function of
grounded types has the same core signature. Each is shown by induction on what a grounded type refers
to, from the recursive equation for layouts, flat forms or traits in either graph.
-/

import WitGraph.Proofs.Abi.Grounded
import WitGraph.Proofs.Layout.Filling

namespace WitGraph.Graph

variable {copy source : Graph} {origin : Renaming}

/-- The types of a closed graph have the kinds of types of another closed graph. -/
structure Mirrors (copy source : Graph) (origin : Renaming) : Prop where
  closed : copy.IsClosed
  sourceClosed : source.IsClosed
  kinds : ∀ {id : TypeId} {kind : TypeKind}, copy.kind? id = some kind →
    source.kind? (origin id) = some (kind.rename origin)

namespace Mirrors

variable {id : TypeId} {kind : TypeKind} {type : TypeRef}

/-- The original of a grounded type is grounded. -/
theorem isGrounded (mirrors : copy.Mirrors source origin) (held : copy.Holds id.item)
    (grounded : copy.IsGrounded id) : source.IsGrounded (origin id) := by
  refine mirrors.closed.grounded_induction
    (motive := fun id => source.IsGrounded (origin id)) (fun id kind found _ ih => ?_) held grounded
  refine isGrounded_of_directIds fun other direct => ?_
  rw [directIds_of_kind? (mirrors.kinds found), Kind.directIds_rename] at direct
  obtain ⟨before, isBefore, rfl⟩ := List.mem_map.mp direct
  exact ih before (Kind.mem_directIds_iff.mp isBefore)

/-! ### Layouts -/

/-- **A grounded type has the extent of its original.** -/
theorem extentOfId_eq (mirrors : copy.Mirrors source origin) {table original : LayoutTable}
    (arithmetic : original.arithmetic = table.arithmetic)
    (solved : ∀ id kind, copy.kind? id = some kind → copy.IsGrounded id →
      table.calculate kind = .ok (table.extentOfId id))
    (originalSolved : ∀ id kind, source.kind? id = some kind → source.IsGrounded id →
      original.calculate kind = .ok (original.extentOfId id))
    (held : copy.Holds id.item) (grounded : copy.IsGrounded id) :
    original.extentOfId (origin id) = table.extentOfId id := by
  refine mirrors.closed.grounded_induction
    (motive := fun id => original.extentOfId (origin id) = table.extentOfId id)
    (fun id kind found grounded ih => ?_) held grounded
  have equation := solved id kind found grounded
  have originalEquation := originalSolved (origin id) _ (mirrors.kinds found)
    (mirrors.isGrounded (holds_of_kind? found) grounded)
  have same : original.calculate (kind.rename origin) = table.calculate kind := by
    refine LayoutTable.calculate_rename arithmetic fun type member => ?_
    cases type with
    | primitive type => rfl
    | defined other => exact ih other (kind.parts_subset_mentions member)
  exact Except.ok.inj (originalEquation.symm.trans (same.trans equation))

/-! ### Flat forms -/

/-- **A grounded type is pushed like its original.** -/
theorem pushType_eq (mirrors : copy.Mirrors source origin)
    (held : ∀ id, type = .defined id → copy.Holds id.item) (grounded : copy.IsGroundedType type)
    (flat : FlatForm) : source.pushType flat (type.rename origin) = copy.pushType flat type := by
  cases type with
  | primitive type => exact (pushRef_primitive _ _ _).trans (pushRef_primitive _ _ _).symm
  | defined id =>
    refine mirrors.closed.grounded_induction
      (motive := fun id => ∀ flat,
        source.pushType flat (.defined (origin id)) = copy.pushType flat (.defined id))
      (fun id kind found grounded ih flat => ?_) (held id rfl) grounded flat
    have isGrounded := mirrors.isGrounded (holds_of_kind? found) grounded
    rw [mirrors.closed.pushType_eq grounded found,
      mirrors.sourceClosed.pushType_eq isGrounded (mirrors.kinds found)]
    refine Kind.pushFlat_rename (fun type member flat => ?_) flat
    cases type with
    | primitive type => exact (pushRef_primitive _ _ _).trans (pushRef_primitive _ _ _).symm
    | defined other => exact ih other member flat

theorem flat_eq (mirrors : copy.Mirrors source origin)
    (held : ∀ id, type = .defined id → copy.Holds id.item) (grounded : copy.IsGroundedType type) :
    source.flat (type.rename origin) = copy.flat type := by
  rw [flat, flat, mirrors.pushType_eq held grounded]

theorem flatAll_eq (mirrors : copy.Mirrors source origin) {types : List TypeRef}
    (held : ∀ id, .defined id ∈ types → copy.Holds id.item)
    (grounded : ∀ type ∈ types, copy.IsGroundedType type) :
    source.flatAll (types.map (TypeRef.rename origin)) = copy.flatAll types := by
  have pushed : (types.map (TypeRef.rename origin)).foldlM source.pushType #[]
      = types.foldlM copy.pushType #[] :=
    Success.foldlM_map_congr (fun type member flat =>
      mirrors.pushType_eq (fun id same => held id (same ▸ member)) (grounded type member) flat) #[]
  rw [flatAll, flatAll, pushed]

/-! ### Traits -/

/-- **A grounded type has the traits of its original**, if they do not depend on ids. -/
theorem mentionsWithin_eq (mirrors : copy.Mirrors source origin) {primitives : Primitive → Bool}
    {kinds : TypeKind → Bool} (blind : ∀ kind, kinds (kind.rename origin) = kinds kind)
    (held : copy.Holds id.item) (grounded : copy.IsGrounded id) :
    source.mentionsWithin primitives kinds source.types.size (.defined (origin id))
      = copy.mentionsWithin primitives kinds copy.types.size (.defined id) := by
  refine mirrors.closed.grounded_induction
    (motive := fun id =>
      source.mentionsWithin primitives kinds source.types.size (.defined (origin id))
        = copy.mentionsWithin primitives kinds copy.types.size (.defined id))
    (fun id kind found grounded ih => ?_) held grounded
  have isGrounded := mirrors.isGrounded (holds_of_kind? found) grounded
  rw [mirrors.closed.mentionsWithin_eq grounded found,
    mirrors.sourceClosed.mentionsWithin_eq isGrounded (mirrors.kinds found), blind,
    Kind.mentions_rename, List.any_map]
  refine congrArg (kinds kind || ·) (any_congr_of_mem fun type member => ?_)
  cases type with
  | primitive type => exact (mentionsWithin_primitive _ _).trans (mentionsWithin_primitive _ _).symm
  | defined other => exact ih other member

theorem hasPointer_eq (mirrors : copy.Mirrors source origin) (held : copy.Holds id.item)
    (grounded : copy.IsGrounded id) :
    source.hasPointer (.defined (origin id)) = copy.hasPointer (.defined id) :=
  mirrors.mentionsWithin_eq (fun kind => by cases kind <;> rfl) held grounded

theorem hasBorrow_eq (mirrors : copy.Mirrors source origin) (held : copy.Holds id.item)
    (grounded : copy.IsGrounded id) :
    source.hasBorrow (.defined (origin id)) = copy.hasBorrow (.defined id) :=
  mirrors.mentionsWithin_eq (fun kind => by cases kind <;> rfl) held grounded

theorem hasResource_eq (mirrors : copy.Mirrors source origin) (held : copy.Holds id.item)
    (grounded : copy.IsGrounded id) :
    source.hasResource (.defined (origin id)) = copy.hasResource (.defined id) :=
  mirrors.mentionsWithin_eq (fun kind => by cases kind <;> rfl) held grounded

/-! ### Signatures -/

/-- **A function of grounded types has the signature of its original.** -/
theorem signature_eq (mirrors : copy.Mirrors source origin) {function : Function}
    (held : ∀ id, .defined id ∈ function.types → copy.Holds id.item)
    (grounded : ∀ type ∈ function.types, copy.IsGroundedType type) (side : AbiSide) :
    source.signature side (function.rename origin) = copy.signature side function := by
  have params := mirrors.flatAll_eq (fun id member => held id (List.mem_append_left _ member))
    fun type member => grounded type (List.mem_append_left _ member)
  have results := mirrors.flatAll_eq (fun id member => held id (List.mem_append_right _ member))
    fun type member => grounded type (List.mem_append_right _ member)
  have resultTypes : (function.rename origin).results.types
      = function.results.types.map (TypeRef.rename origin) := function.results.types_rename
  have isMethod : (function.rename origin).kind.isMethod = function.kind.isMethod :=
    function.kind.isMethod_rename
  rw [signature, signature, function.paramTypes_rename, params, resultTypes, results, isMethod]

end Mirrors

end WitGraph.Graph
