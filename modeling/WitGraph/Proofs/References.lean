/-
**The ids in kinds and functions.**

The definitions that a kind or a function refers to are those among the types that it mentions, and
the resource of the function.
-/

import WitGraph.Graph.Function
import WitGraph.Graph.Kind

namespace WitGraph

theorem TypeRef.mem_filterMap_id? {refs : List TypeRef} {id : TypeId} :
    id ∈ refs.filterMap TypeRef.id? ↔ .defined id ∈ refs := by
  rw [List.mem_filterMap]
  constructor
  · rintro ⟨_ | other, member, same⟩
    · cases same
    · cases same
      exact member
  · exact fun member => ⟨_, member, rfl⟩

/-- The definitions that a kind refers to are those among the types that it mentions. -/
theorem Kind.directIds_eq_filterMap (kind : TypeKind) :
    kind.directIds = kind.mentions.filterMap TypeRef.id? := by
  have optional : ∀ ref : Option TypeRef,
      (ref.bind TypeRef.id?).toList = ref.toList.filterMap TypeRef.id? := by
    rintro (_ | _ | _) <;> rfl
  cases kind <;>
    simp [directIds, mentions, optional, List.filterMap_filterMap, Function.comp_def,
      TypeRef.id?] <;> rfl

/-- A kind refers to the definitions that it mentions. -/
theorem Kind.mem_directIds_iff {kind : TypeKind} {id : TypeId} :
    id ∈ kind.directIds ↔ .defined id ∈ kind.mentions := by
  rw [Kind.directIds_eq_filterMap, TypeRef.mem_filterMap_id?]

theorem Kind.map_type_positionalFields (types : List TypeRef) :
    (positionalFields (ρ := TypeRef) types).map Field.type = types := by
  simp [positionalFields, Function.comp_def]

/-- A kind mentions the same types as the record or variant that it is laid out like. -/
theorem Kind.mentions_despecialize (kind : TypeKind) : kind.despecialize.mentions = kind.mentions := by
  cases kind with
  | tuple types => exact map_type_positionalFields types
  | enum cases => simp [despecialize, mentions, bareCase]
  | option payload => rfl
  | result ok err => cases ok <;> cases err <;> rfl
  | _ => rfl

/-- A function refers to its resource and to the definitions in its signature. -/
theorem Function.mem_mentionedIds_iff {function : Function} {id : TypeId} :
    id ∈ function.mentionedIds
      ↔ function.kind.resource? = some id ∨ .defined id ∈ function.types := by
  rw [mentionedIds, List.mem_append, Option.mem_toList, TypeRef.mem_filterMap_id?]

end WitGraph
