/-
**Documents that are written hold only text and natural numbers.**

So the JSON of a graph is read back from its rendering.
-/

import WitGraph.Document.Writing
import WitGraph.Proofs.Json.Rendering

namespace WitGraph

namespace Json

/-- The members of a record hold only text and natural numbers. -/
def PlainMembers (members : List (String × Json)) : Prop := ∀ member ∈ members, member.2.IsPlain

theorem PlainMembers.nil : PlainMembers [] := fun _ inside => by cases inside

theorem PlainMembers.cons {name : String} {value : Json} {rest : List (String × Json)}
    (first : value.IsPlain) (others : PlainMembers rest) : PlainMembers ((name, value) :: rest) := by
  intro member inside
  rcases List.mem_cons.mp inside with rfl | inRest
  · exact first
  · exact others member inRest

/-- Members are plain together if they are apart. -/
theorem PlainMembers.append {first second : List (String × Json)} (plain : PlainMembers first)
    (others : PlainMembers second) : PlainMembers (first ++ second) := by
  intro member inside
  rcases List.mem_append.mp inside with inFirst | inSecond
  · exact plain member inFirst
  · exact others member inSecond

theorem IsPlain.members {members : List (String × Json)} (plain : PlainMembers members) :
    (Json.record members).IsPlain := .record plain

theorem IsPlain.alternative {name : String} {value : Json} (plain : value.IsPlain) :
    (Json.record [(name, value)]).IsPlain := .members (.cons plain .nil)

theorem IsPlain.optional {α : Type} {write : α → Json} (plain : ∀ value, (write value).IsPlain)
    (value : Option α) : (ofOption (value.map write)).IsPlain := by
  cases value with
  | none => exact .null
  | some value => exact plain value

theorem IsPlain.list {α : Type} {write : α → Json} (plain : ∀ value, (write value).IsPlain)
    (values : List α) : (Json.array (values.map write)).IsPlain := by
  refine .array fun item inside => ?_
  obtain ⟨value, -, rfl⟩ := List.mem_map.mp inside
  exact plain value

end Json

open Json

theorem OrderedMap.isPlain_toJson {κ ν : Type} {key : κ → String} {write : ν → Json}
    (plain : ∀ value, (write value).IsPlain) (map : OrderedMap κ ν) :
    (map.toJson key write).IsPlain := by
  refine .record fun member inside => ?_
  obtain ⟨entry, -, rfl⟩ := List.mem_map.mp inside
  exact plain entry.2

/-! ### Annotations and references -/

theorem Id.isPlain_toJson {arena : Arena} (id : Id arena) : id.toJson.IsPlain := .nat id.index

theorem Docs.plainMembers (docs : Docs) : PlainMembers docs.members := by
  unfold Docs.members
  split
  · exact .nil
  · exact .cons (.alternative (.optional .text docs.contents)) .nil

theorem Stability.plainMembers_deprecated (deprecated : Option Version) :
    PlainMembers (deprecatedMembers deprecated) := by
  cases deprecated with
  | none => exact .nil
  | some version => exact .cons (.text _) .nil

theorem Stability.isPlain_toJson (stability : Stability) : stability.toJson.IsPlain := by
  cases stability with
  | stable since deprecated =>
    exact .alternative (.members (.cons (.text _) (plainMembers_deprecated deprecated)))
  | unstable feature deprecated =>
    exact .alternative (.members (.cons (.text _) (plainMembers_deprecated deprecated)))
  | unknown => exact .text _

theorem Stability.plainMembers (stability : Stability) : PlainMembers stability.members := by
  unfold members
  split
  · exact .nil
  · exact .cons stability.isPlain_toJson .nil

theorem TypeRef.isPlain_toJson (type : TypeRef) : type.toJson.IsPlain := by
  cases type with
  | primitive primitive => exact .text _
  | defined id => exact id.isPlain_toJson

theorem TypeRef.isPlain_optionToJson (type : Option TypeRef) : (optionToJson type).IsPlain :=
  .optional isPlain_toJson type

/-! ### Types -/

theorem Field.isPlain_toJson (field : Field TypeRef) : field.toJson.IsPlain :=
  .members (.cons (.text _) (.cons field.type.isPlain_toJson field.docs.plainMembers))

theorem Case.isPlain_toJson (case : Case TypeRef) : case.toJson.IsPlain :=
  .members (.cons (.text _) (.cons (TypeRef.isPlain_optionToJson case.type) case.docs.plainMembers))

theorem Label.isPlain_toJson (label : Label) : label.toJson.IsPlain :=
  .members (.cons (.text _) label.docs.plainMembers)

theorem Kind.isPlain_toJson (kind : TypeKind) : kind.toJson.IsPlain := by
  cases kind with
  | resource | errorContext | unknown => exact .text _
  | record fields => exact .alternative (.alternative (.list Field.isPlain_toJson fields))
  | own id | borrow id => exact .alternative (.alternative id.isPlain_toJson)
  | flags labels | enum labels =>
    exact .alternative (.alternative (.list Label.isPlain_toJson labels))
  | tuple types => exact .alternative (.alternative (.list TypeRef.isPlain_toJson types))
  | variant cases => exact .alternative (.alternative (.list Case.isPlain_toJson cases))
  | option type | list type | pointer type | synonym type =>
    exact .alternative type.isPlain_toJson
  | result ok err =>
    exact .alternative (.members (.cons (TypeRef.isPlain_optionToJson ok)
      (.cons (TypeRef.isPlain_optionToJson err) .nil)))
  | future payload | stream payload =>
    exact .alternative (TypeRef.isPlain_optionToJson payload)

theorem Owner.isPlain_toJson (owner : Owner) : owner.toJson.IsPlain := by
  cases owner with
  | world id | interface id => exact .alternative id.isPlain_toJson
  | none => exact .null

theorem TypeDef.isPlain_toJson (type : TypeDef) : type.toJson.IsPlain :=
  .members (((PlainMembers.cons (.optional .text type.name) (.cons type.kind.isPlain_toJson
    (.cons type.owner.isPlain_toJson .nil))).append type.docs.plainMembers).append
      type.stability.plainMembers)

/-! ### Functions -/

theorem FunctionKind.isPlain_toJson (kind : FunctionKind TypeId) : kind.toJson.IsPlain := by
  cases kind with
  | freestanding => exact .text _
  | method id | static id | constructor id => exact .alternative id.isPlain_toJson

theorem Param.isPlain_toJson (param : Param TypeRef) : param.toJson.IsPlain := by
  refine .members (.append ?_ (.cons param.type.isPlain_toJson .nil))
  split
  · exact .nil
  · exact .cons (.text _) .nil

theorem Results.plainMembers (results : Results) : PlainMembers results.members := by
  unfold members
  split
  · exact .cons (TypeRef.isPlain_toJson _) .nil
  · exact .nil
  · exact .cons (.list Param.isPlain_toJson _) .nil

theorem Function.isPlain_toJson (function : Function) : function.toJson.IsPlain :=
  .members ((((PlainMembers.cons (.text _) (.cons function.kind.isPlain_toJson
    (.cons (.list Param.isPlain_toJson function.params) .nil))).append
      function.results.plainMembers).append function.docs.plainMembers).append
        function.stability.plainMembers)

/-! ### Worlds, interfaces and packages -/

theorem WorldItem.isPlain_toJson (item : WorldItem) : item.toJson.IsPlain := by
  cases item with
  | interface id stability =>
    exact .alternative (.members (.cons id.isPlain_toJson stability.plainMembers))
  | function func => exact .alternative func.isPlain_toJson
  | type id => exact .alternative id.isPlain_toJson

theorem World.isPlain_toJson (world : World) : world.toJson.IsPlain :=
  .members (((PlainMembers.cons (.text _)
    (.cons (world.imports.isPlain_toJson WorldItem.isPlain_toJson)
      (.cons (world.exports.isPlain_toJson WorldItem.isPlain_toJson)
        (.cons (.optional Id.isPlain_toJson world.package) .nil)))).append
          world.docs.plainMembers).append world.stability.plainMembers)

theorem Interface.isPlain_toJson (interface : Interface) : interface.toJson.IsPlain :=
  .members ((((PlainMembers.cons (.optional .text interface.name)
    (.cons (interface.types.isPlain_toJson Id.isPlain_toJson)
      (.cons (interface.functions.isPlain_toJson Function.isPlain_toJson) .nil))).append
        interface.docs.plainMembers).append interface.stability.plainMembers).append
          (.cons (.optional Id.isPlain_toJson interface.package) .nil))

theorem Package.isPlain_toJson (package : Package) : package.toJson.IsPlain :=
  .members (.cons (.text _) (package.docs.plainMembers.append
    (.cons (package.interfaces.isPlain_toJson Id.isPlain_toJson)
      (.cons (package.worlds.isPlain_toJson Id.isPlain_toJson) .nil))))

/-- Documents that are written are plain. -/
theorem Graph.isPlain_toJson (graph : Graph) : graph.toJson.IsPlain :=
  .members (.cons (.list World.isPlain_toJson _) (.cons (.list Interface.isPlain_toJson _)
    (.cons (.list TypeDef.isPlain_toJson _) (.cons (.list Package.isPlain_toJson _) .nil))))

end WitGraph
