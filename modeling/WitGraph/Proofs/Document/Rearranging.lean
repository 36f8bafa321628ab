/-
**Documents with their types in another order.**

`Document.rearranged` moves the type definitions of a document to other positions and renumbers all uses
of them. What a record is linked to carries over (`Success.Carries`): the renumbered record is linked to
the same entity with renamed ids, in any document that has room for the moved types (`HasRoom`). So the
rearranged document is accepted if the document is, and has its types at other places
(`exists_link_rearranged`).
-/

import Mathlib.Algebra.Group.End
import WitGraph.Proofs.Document.Described

namespace WitGraph

namespace Document

/-! ### Renumbering -/

/-- A use of a type whose position has changed. -/
def Ref.renumber (move : Nat → Nat) : Ref → Ref
  | .index position => .index (move position)
  | .name text => .name text

end Document

open Document in
/-- A parameter or result whose type has another position. -/
def Param.renumber (move : Nat → Nat) (param : Param Ref) : Param Ref :=
  { param with type := param.type.renumber move }

open Document in
/-- A field whose type has another position. -/
def Field.renumber (move : Nat → Nat) (field : Field Ref) : Field Ref :=
  { field with type := field.type.renumber move }

open Document in
/-- A case whose payload has another position. -/
def Case.renumber (move : Nat → Nat) (case : Case Ref) : Case Ref :=
  { case with type := case.type.map (Ref.renumber move) }

open Document in
/-- A kind that refers to types at other positions. -/
def Kind.renumber (move : Nat → Nat) : Kind Nat Ref → Kind Nat Ref
  | .record fields => .record (fields.map (Field.renumber move))
  | .resource => .resource
  | .own index => .own (move index)
  | .borrow index => .borrow (move index)
  | .flags labels => .flags labels
  | .tuple types => .tuple (types.map (Ref.renumber move))
  | .variant cases => .variant (cases.map (Case.renumber move))
  | .enum cases => .enum cases
  | .option payload => .option (payload.renumber move)
  | .result ok err => .result (ok.map (Ref.renumber move)) (err.map (Ref.renumber move))
  | .list element => .list (element.renumber move)
  | .future payload => .future (payload.map (Ref.renumber move))
  | .stream payload => .stream (payload.map (Ref.renumber move))
  | .errorContext => .errorContext
  | .pointer target => .pointer (target.renumber move)
  | .synonym target => .synonym (target.renumber move)
  | .unknown => .unknown

/-- How a function belongs to a resource at another position. -/
def FunctionKind.renumber (move : Nat → Nat) : FunctionKind Nat → FunctionKind Nat
  | .freestanding => .freestanding
  | .method index => .method (move index)
  | .static index => .static (move index)
  | .constructor index => .constructor (move index)

namespace Document

/-- A type definition that refers to types at other positions. -/
def TypeRecord.renumber (move : Nat → Nat) (type : TypeRecord) : TypeRecord :=
  { type with kind := type.kind.renumber move }

/-- A function that refers to types at other positions. -/
def FunctionRecord.renumber (move : Nat → Nat) (function : FunctionRecord) : FunctionRecord :=
  { function with
    kind := function.kind.renumber move
    params := function.params.map (Param.renumber move)
    result := function.result.map (Ref.renumber move)
    results := function.results.map (List.map (Param.renumber move)) }

/-- An interface that refers to types at other positions. -/
def InterfaceRecord.renumber (move : Nat → Nat) (interface : InterfaceRecord) : InterfaceRecord :=
  { interface with
    types := interface.types.mapValues move
    functions := interface.functions.mapValues (FunctionRecord.renumber move) }

/-- An import or export that refers to types at other positions. -/
def ItemRecord.renumber (move : Nat → Nat) : ItemRecord → ItemRecord
  | .interface index stability => .interface index stability
  | .function record => .function (record.renumber move)
  | .type ref => .type (ref.renumber move)

/-- A world that refers to types at other positions. -/
def WorldRecord.renumber (move : Nat → Nat) (world : WorldRecord) : WorldRecord :=
  { world with
    imports := world.imports.mapValues (ItemRecord.renumber move)
    exports := world.exports.mapValues (ItemRecord.renumber move) }

/-- The position at which an order of some types puts a type. Positions without a type stay the same. -/
def newPosition {count : Nat} (order : Equiv.Perm (Fin count)) (index : Nat) : Nat :=
  if inside : index < count then order ⟨index, inside⟩ else index

/-- The document with its types in another order and all uses of them renumbered. -/
def rearranged (document : Document) (order : Equiv.Perm (Fin document.types.length)) : Document where
  worlds := document.worlds.map (WorldRecord.renumber (newPosition order))
  interfaces := document.interfaces.map (InterfaceRecord.renumber (newPosition order))
  types := List.ofFn fun place => document.types[order.symm place].renumber (newPosition order)
  packages := document.packages

end Document

/-- The renaming that gives types new positions and leaves everything else as it is. -/
def Renaming.ofTypes (move : Nat → Nat) : Renaming := fun {arena} id =>
  ⟨if arena = .type then move id.index else id.index⟩

/-- The other graph has the types of the graph at other places, where they refer to each other. -/
structure Graph.Rearranges (graph : Graph) (via : Renaming) (other : Graph) : Prop where
  apart : ∀ first second : TypeId, via first = via second → first = second
  onto : ∀ id : TypeId, ∃ before : TypeId, via before = id
  kinds : ∀ id : TypeId, other.kind? (via id) = (graph.kind? id).map (Kind.rename via)

namespace Document

open Success

/-! ### Maps -/

section Maps

variable {α β γ δ κ μ : Type}

theorem carries_within {link : α → Except Fault β} {other : γ → Except Fault δ} {change : α → γ}
    {make : β → δ} (place : Place) (carries : Carries link other change make) :
    Carries (fun record => within place (link record)) (fun record => within place (other record))
      change make :=
  fun _ _ linked => within_eq_ok_iff.mpr (carries _ _ (within_eq_ok_iff.mp linked))

/-- Maps whose keys keep their texts are linked as the values are, and their keys change with the
values. -/
theorem linkEntries_carried [DecidableEq κ] [DecidableEq μ] (key : String → β → κ)
    (otherKey : String → δ → μ) (rekey : κ → μ) {text : κ → String}
    {link : String → α → Except Fault β} {other : String → γ → Except Fault δ}
    {change : α → γ} {make : β → δ} (reads : ∀ name value, text (key name value) = name)
    (keys : ∀ name value, otherKey name (make value) = rekey (key name value))
    (carries : ∀ name, Carries (link name) (other name) change make) {records : OrderedMap String α}
    {values : OrderedMap κ β} (linked : linkEntries (linkEntry key link) records = .ok values) :
    linkEntries (linkEntry otherKey other) (records.mapValues change)
      = .ok (.ofList (values.entries.map fun entry => (rekey entry.1, make entry.2))) := by
  refine bind_return_eq_ok_iff.mpr ⟨_, mapM_eq_ok_iff.mpr ?_, rfl⟩
  rw [OrderedMap.mapValues, List.forall₂_map_left_iff, List.forall₂_map_right_iff]
  refine (forall₂_of_linkEntries reads linked).imp fun record entry pair => ?_
  refine bind_return_eq_ok_iff.mpr ⟨_, carries record.1 _ _ pair.2, ?_⟩
  rw [keys, pair.1]

theorem carries_linkMap {link : String → α → Except Fault β} {other : String → γ → Except Fault δ}
    {change : α → γ} {make : β → δ} (carries : ∀ name, Carries (link name) (other name) change make) :
    Carries (linkMap link) (linkMap other) (fun map => map.mapValues change)
      (fun map => map.mapValues make) := by
  intro records values linked
  have areEntries : linkEntries (linkEntry (fun name _ => name) link) records = .ok values := linked
  have carried := linkEntries_carried (fun name _ => name) (fun name _ => name) id (fun _ _ => rfl)
    (fun _ _ => rfl) carries areEntries
  refine Eq.trans carried (congrArg Except.ok (OrderedMap.ext ?_))
  exact OrderedMap.entries_ofList (values.mapValues make).distinct

end Maps

theorem Results.ofList_rename {via : Renaming} (params : List (Param TypeRef)) :
    Results.ofList (params.map fun param => { param with type := param.type.rename via })
      = (Results.ofList params).rename via := by
  match params with
  | [] | _ :: _ :: _ => rfl
  | [param] =>
    simp only [List.map_cons, List.map_nil, Results.ofList]
    split <;> rfl

/-- Keys do not change when types are moved. -/
theorem keyOf_rename {move : Nat → Nat} (name : String) (item : WorldItem) :
    keyOf name (item.rename (Renaming.ofTypes move))
      = (keyOf name item).rename (Renaming.ofTypes move) := by
  cases item with
  | interface id stability =>
    show (if name = (WorldKey.interface id).text then WorldKey.interface id else .name name) = _
    rw [keyOf]
    split <;> rfl
  | function func => rfl
  | type id => rfl

/-- The other document has room for whatever is moved. -/
structure HasRoom (document : Document) (move : Nat → Nat) (other : Document) : Prop where
  size : other.size = document.size
  stays : ∀ index < document.size .type, move index < document.size .type

namespace HasRoom

variable {document other : Document} {move : Nat → Nat} (room : document.HasRoom move other)
include room

/-! ### References -/

theorem carries_linkId :
    Carries (document.linkId .type) (other.linkId .type) move (Renaming.ofTypes move) := by
  intro index id linked
  obtain ⟨inside, rfl⟩ := linkId_eq_ok_iff.mp linked
  rw [linkId_congr room.size]
  exact linkId_eq_ok_iff.mpr ⟨room.stays index inside, rfl⟩

theorem carries_linkRef : Carries document.linkRef other.linkRef (Ref.renumber move)
    (TypeRef.rename (Renaming.ofTypes move)) := by
  intro ref type linked
  cases ref with
  | index position => exact room.carries_linkId.returned linked fun _ => rfl
  | name text =>
    cases named : Primitive.ofName? text with
    | none =>
      rw [linkRef, named] at linked
      cases linked
    | some primitive =>
      rw [linkRef, named] at linked
      cases linked
      rw [Ref.renumber, linkRef, named]
      rfl

theorem carries_linkRef? : Carries (Kind.mapOptionM document.linkRef) (Kind.mapOptionM other.linkRef)
    (Option.map (Ref.renumber move)) (Option.map (TypeRef.rename (Renaming.ofTypes move))) := by
  intro ref type linked
  cases ref with
  | none =>
    cases linked
    rfl
  | some ref => exact room.carries_linkRef.returned linked fun _ => rfl

/-! ### Types -/

theorem carries_linkKind : Carries (Kind.mapM (document.linkId .type) document.linkRef)
    (Kind.mapM (other.linkId .type) other.linkRef) (Kind.renumber move)
    (Kind.rename (Renaming.ofTypes move)) := by
  intro kind value linked
  cases kind with
  | record fields =>
    refine (Carries.mapM fun field value linkedField => ?_).returned linked fun _ => rfl
    obtain ⟨type, isType, rfl⟩ := bind_return_eq_ok_iff.mp linkedField
    exact bind_return_eq_ok_iff.mpr ⟨_, room.carries_linkRef _ _ isType, rfl⟩
  | variant cases =>
    refine (Carries.mapM fun case value linkedCase => ?_).returned linked fun _ => rfl
    obtain ⟨type, isType, rfl⟩ := bind_return_eq_ok_iff.mp linkedCase
    exact bind_return_eq_ok_iff.mpr ⟨_, room.carries_linkRef? _ _ isType, rfl⟩
  | tuple types => exact room.carries_linkRef.mapM.returned linked fun _ => rfl
  | result ok err =>
    obtain ⟨okType, isOk, rest⟩ := bind_eq_ok_iff.mp linked
    exact bind_eq_ok_iff.mpr ⟨_, room.carries_linkRef? _ _ isOk,
      room.carries_linkRef?.returned rest fun _ => rfl⟩
  | own index | borrow index => exact room.carries_linkId.returned linked fun _ => rfl
  | option ref | list ref | pointer ref | synonym ref =>
    exact room.carries_linkRef.returned linked fun _ => rfl
  | future ref | stream ref => exact room.carries_linkRef?.returned linked fun _ => rfl
  | resource | flags _ | enum _ | errorContext | unknown =>
    cases linked
    rfl

theorem carries_linkType : Carries document.linkType other.linkType (TypeRecord.renumber move)
    (TypeDef.rename (Renaming.ofTypes move)) := by
  intro record type linked
  obtain ⟨owner, isOwner, rest⟩ := bind_eq_ok_iff.mp linked
  obtain ⟨kind, isKind, rfl⟩ := bind_return_eq_ok_iff.mp rest
  refine bind_eq_ok_iff.mpr ⟨owner, linkOwner_congr room.size ▸ isOwner,
    bind_return_eq_ok_iff.mpr ⟨_, room.carries_linkKind _ _ isKind, ?_⟩⟩
  cases owner <;> rfl

/-! ### Functions -/

theorem carries_linkFunctionKind : Carries document.linkFunctionKind other.linkFunctionKind
    (FunctionKind.renumber move) (FunctionKind.rename (Renaming.ofTypes move)) := by
  intro kind value linked
  cases kind with
  | freestanding =>
    cases linked
    rfl
  | method index | static index | constructor index =>
    exact room.carries_linkId.returned linked fun _ => rfl

theorem carries_linkParams : Carries document.linkParams other.linkParams
    (List.map (Param.renumber move))
    (List.map fun param => { param with type := param.type.rename (Renaming.ofTypes move) }) := by
  refine Carries.mapM fun param value linked => ?_
  obtain ⟨type, isType, rfl⟩ := bind_return_eq_ok_iff.mp linked
  exact bind_return_eq_ok_iff.mpr ⟨_, room.carries_linkRef _ _ isType, rfl⟩

theorem carries_linkResults {result : Option Ref} {records : Option (List (Param Ref))}
    {results : Results} (linked : document.linkResults result records = .ok results) :
    other.linkResults (result.map (Ref.renumber move)) (records.map (List.map (Param.renumber move)))
      = .ok (results.rename (Renaming.ofTypes move)) := by
  cases result with
  | some ref =>
    cases records with
    | some _ => cases linked
    | none => exact room.carries_linkRef.returned linked fun _ => rfl
  | none =>
    cases records with
    | none =>
      cases linked
      rfl
    | some params => exact room.carries_linkParams.returned linked Results.ofList_rename

theorem carries_linkFunction : Carries document.linkFunction other.linkFunction
    (FunctionRecord.renumber move) (Function.rename (Renaming.ofTypes move)) := by
  intro record function linked
  obtain ⟨kind, isKind, rest⟩ := bind_eq_ok_iff.mp linked
  obtain ⟨params, areParams, rest⟩ := bind_eq_ok_iff.mp rest
  obtain ⟨results, areResults, rfl⟩ := bind_return_eq_ok_iff.mp rest
  exact bind_eq_ok_iff.mpr ⟨_, room.carries_linkFunctionKind _ _ isKind,
    bind_eq_ok_iff.mpr ⟨_, room.carries_linkParams _ _ areParams,
      bind_return_eq_ok_iff.mpr ⟨_, room.carries_linkResults areResults, rfl⟩⟩⟩

/-! ### Interfaces and worlds -/

theorem carries_linkInterface : Carries document.linkInterface other.linkInterface
    (InterfaceRecord.renumber move) (Interface.rename (Renaming.ofTypes move)) := by
  intro record interface linked
  obtain ⟨types, areTypes, rest⟩ := bind_eq_ok_iff.mp linked
  obtain ⟨functions, areFunctions, rest⟩ := bind_eq_ok_iff.mp rest
  obtain ⟨package, isPackage, rfl⟩ := bind_return_eq_ok_iff.mp rest
  have carried (name : String) := carries_within (.function name) room.carries_linkFunction
  refine bind_eq_ok_iff.mpr ⟨_, carries_linkMap (fun _ => room.carries_linkId) _ _ areTypes,
    bind_eq_ok_iff.mpr ⟨_, carries_linkMap carried _ _ areFunctions,
      bind_return_eq_ok_iff.mpr ⟨package, linkPackage?_congr room.size ▸ isPackage, ?_⟩⟩⟩
  cases package <;> rfl

theorem carries_linkItem : Carries document.linkItem other.linkItem (ItemRecord.renumber move)
    (WorldItem.rename (Renaming.ofTypes move)) := by
  intro record item linked
  rcases record with ⟨index, stability⟩ | record | index | name
  · obtain ⟨id, isId, rfl⟩ := bind_return_eq_ok_iff.mp linked
    exact bind_return_eq_ok_iff.mpr ⟨id, linkId_congr room.size ▸ isId, rfl⟩
  · exact room.carries_linkFunction.returned linked fun _ => rfl
  · exact room.carries_linkId.returned linked fun _ => rfl
  · cases linked

theorem carries_linkItems : Carries document.linkItems other.linkItems
    (fun items => items.mapValues (ItemRecord.renumber move))
    (WorldItem.renameEntries (Renaming.ofTypes move)) := by
  intro records items linked
  have carried (name : String) := carries_within (.item name) room.carries_linkItem
  rw [linkItems_eq] at linked ⊢
  exact linkEntries_carried keyOf keyOf (WorldKey.rename (Renaming.ofTypes move)) text_keyOf keyOf_rename
    carried linked

theorem carries_linkWorld : Carries document.linkWorld other.linkWorld (WorldRecord.renumber move)
    (World.rename (Renaming.ofTypes move)) := by
  intro record world linked
  obtain ⟨imports, areImports, rest⟩ := bind_eq_ok_iff.mp linked
  obtain ⟨exports, areExports, rest⟩ := bind_eq_ok_iff.mp rest
  obtain ⟨package, isPackage, rfl⟩ := bind_return_eq_ok_iff.mp rest
  refine bind_eq_ok_iff.mpr
    ⟨_, within_eq_ok_iff.mpr (room.carries_linkItems _ _ (within_eq_ok_iff.mp areImports)),
      bind_eq_ok_iff.mpr
        ⟨_, within_eq_ok_iff.mpr (room.carries_linkItems _ _ (within_eq_ok_iff.mp areExports)),
          bind_return_eq_ok_iff.mpr ⟨package, linkPackage?_congr room.size ▸ isPackage, ?_⟩⟩⟩
  cases package <;> rfl

end HasRoom

/-! ### Documents -/

section Rearranged

variable {document : Document} {graph : Graph} (order : Equiv.Perm (Fin document.types.length))

theorem newPosition_coe {count : Nat} (order : Equiv.Perm (Fin count)) (place : Fin count) :
    newPosition order place = order place :=
  dif_pos place.isLt

theorem newPosition_lt {count : Nat} (order : Equiv.Perm (Fin count)) {index : Nat}
    (inside : index < count) : newPosition order index < count := by
  rw [newPosition, dif_pos inside]
  exact (order _).isLt

/-- The inverse order puts every type back. -/
theorem newPosition_symm {count : Nat} (order : Equiv.Perm (Fin count)) :
    Function.LeftInverse (newPosition order.symm) (newPosition order) := by
  intro index
  by_cases inside : index < count
  · simp [newPosition, inside]
  · simp [newPosition, inside]

theorem hasRoom_rearranged :
    document.HasRoom (newPosition order) (document.rearranged order) where
  size := by
    funext arena
    cases arena <;> simp [size, rearranged]
  stays _ inside := newPosition_lt order inside

theorem getElem?_rearranged (index : Nat) :
    (document.rearranged order).types[newPosition order index]?
      = document.types[index]?.map (TypeRecord.renumber (newPosition order)) := by
  by_cases inside : index < document.types.length
  · simp [rearranged, newPosition, inside]
  · simp [rearranged, newPosition, inside]

/-- **A document with its types in another order is accepted as well**, and describes the same types at
other places. -/
theorem exists_link_rearranged (linked : document.Linked graph) :
    ∃ other, (document.rearranged order).link = .ok other
      ∧ graph.Rearranges (Renaming.ofTypes (newPosition order)) other := by
  have room := hasRoom_rearranged order
  have each (record : TypeRecord) (member : record ∈ (document.rearranged order).types) :
      ∃ type, (document.rearranged order).linkType record = .ok type := by
    obtain ⟨place, rfl⟩ := List.mem_ofFn.mp member
    have pair := Success.rel_getElem? linked.types (order.symm place)
    rw [List.getElem?_eq_getElem (order.symm place).isLt] at pair
    generalize graph.types.toList[(order.symm place).val]? = type at pair
    cases pair with
    | some isType => exact ⟨_, room.carries_linkType _ _ isType⟩
  obtain ⟨types, areTypes⟩ := Success.exists_forall₂ each
  refine ⟨{ graph with
      types := types.toArray
      interfaces := graph.interfaces.map (Interface.rename (Renaming.ofTypes (newPosition order)))
      worlds := graph.worlds.map (World.rename (Renaming.ofTypes (newPosition order))) }, ?_, ?_, ?_, ?_⟩
  · refine link_eq_ok_iff.mpr ⟨⟨areTypes, ?_, ?_, ?_⟩, linked.names⟩
    · rw [Array.toList_map, rearranged, List.forall₂_map_left_iff, List.forall₂_map_right_iff]
      exact linked.interfaces.imp room.carries_linkInterface
    · rw [Array.toList_map, rearranged, List.forall₂_map_left_iff, List.forall₂_map_right_iff]
      exact linked.worlds.imp room.carries_linkWorld
    · rw [linksPackage_congr room.size]
      exact linked.packages
  · intro first second same
    exact congrArg Id.mk ((newPosition_symm order).injective (congrArg Id.index same))
  · intro id
    exact ⟨⟨newPosition order.symm id.index⟩, congrArg Id.mk (newPosition_symm order.symm id.index)⟩
  · intro id
    have pair := Success.rel_getElem? linked.types id.index
    have moved := Success.rel_getElem? areTypes (newPosition order id.index)
    rw [getElem?_rearranged] at moved
    show (types.toArray[newPosition order id.index]?).map TypeDef.kind
      = ((graph.types[id.index]?).map TypeDef.kind).map _
    rw [List.getElem?_toArray, ← Array.getElem?_toList]
    generalize document.types[id.index]? = record at pair moved
    generalize graph.types.toList[id.index]? = type at pair ⊢
    generalize types[newPosition order id.index]? = movedType at moved ⊢
    cases pair with
    | none =>
      cases moved
      rfl
    | some isType =>
      cases moved with
      | some isMoved =>
        cases (room.carries_linkType _ _ isType).symm.trans isMoved
        rfl

end Rearranged

end Document

end WitGraph
