/-
**Links stay within the arenas.**

A reference that is linked is within its arena (`holds_of_linkId`), and so are all links of a type,
an interface, a world or a package that is linked (`holds_of_linkType`, `holds_of_linkInterface`,
`holds_of_linkWorld`, `holds_of_linkPackage`).
-/

import WitGraph.Proofs.Document.Linked
import WitGraph.Proofs.Document.Restoring
import WitGraph.Proofs.References

namespace WitGraph

/-- Whatever a linked kind mentions has been linked from an id or from a reference. -/
theorem Kind.exists_of_mem_mentions {ε ι ρ : Type} {mapId : ι → Except ε TypeId}
    {ref : ρ → Except ε TypeRef} {kind : Kind ι ρ} {linked : TypeKind}
    (isLinked : kind.mapM mapId ref = .ok linked) {type : TypeRef}
    (mentioned : type ∈ linked.mentions) :
    (∃ index id, mapId index = .ok id ∧ type = .defined id) ∨ ∃ name, ref name = .ok type := by
  have optional {before : Option ρ} {after : Option TypeRef}
      (isLinked : mapOptionM ref before = .ok after) (isType : type ∈ after.toList) :
      ∃ name, ref name = .ok type := by
    cases before with
    | none =>
      cases isLinked
      cases isType
    | some name =>
      obtain ⟨found, isFound, rfl⟩ := Success.bind_return_eq_ok_iff.mp isLinked
      rw [List.mem_singleton.mp isType]
      exact ⟨name, isFound⟩
  cases kind with
  | resource | flags _ | enum _ | errorContext | unknown =>
    cases isLinked
    cases mentioned
  | own index | borrow index =>
    obtain ⟨id, isId, rfl⟩ := Success.bind_return_eq_ok_iff.mp isLinked
    rw [List.mem_singleton.mp mentioned]
    exact Or.inl ⟨index, id, isId, rfl⟩
  | option name | list name | pointer name | synonym name =>
    obtain ⟨found, isFound, rfl⟩ := Success.bind_return_eq_ok_iff.mp isLinked
    rw [List.mem_singleton.mp mentioned]
    exact Or.inr ⟨name, isFound⟩
  | future payload | stream payload =>
    obtain ⟨found, isFound, rfl⟩ := Success.bind_return_eq_ok_iff.mp isLinked
    exact Or.inr (optional isFound mentioned)
  | result ok err =>
    obtain ⟨okType, isOk, rest⟩ := Success.bind_eq_ok_iff.mp isLinked
    obtain ⟨errType, isErr, rfl⟩ := Success.bind_return_eq_ok_iff.mp rest
    exact Or.inr ((List.mem_append.mp mentioned).elim (optional isOk) (optional isErr))
  | tuple names =>
    obtain ⟨types, areTypes, rfl⟩ := Success.bind_return_eq_ok_iff.mp isLinked
    obtain ⟨name, -, isFound⟩ :=
      Success.exists_of_mem_right (Success.mapM_eq_ok_iff.mp areTypes) mentioned
    exact Or.inr ⟨name, isFound⟩
  | record fields =>
    obtain ⟨linkedFields, areFields, rfl⟩ := Success.bind_return_eq_ok_iff.mp isLinked
    obtain ⟨field, isField, rfl⟩ := List.mem_map.mp mentioned
    obtain ⟨before, -, isFound⟩ :=
      Success.exists_of_mem_right (Success.mapM_eq_ok_iff.mp areFields) isField
    obtain ⟨found, isType, rfl⟩ := Success.bind_return_eq_ok_iff.mp isFound
    exact Or.inr ⟨before.type, isType⟩
  | variant cases =>
    obtain ⟨linkedCases, areCases, rfl⟩ := Success.bind_return_eq_ok_iff.mp isLinked
    obtain ⟨case, isCase, isPayload⟩ := List.mem_filterMap.mp mentioned
    obtain ⟨before, -, isFound⟩ :=
      Success.exists_of_mem_right (Success.mapM_eq_ok_iff.mp areCases) isCase
    obtain ⟨found, isType, rfl⟩ := Success.bind_return_eq_ok_iff.mp isFound
    exact Or.inr (optional isType (Option.mem_toList.mpr isPayload))

namespace Document

variable {document : Document}

/-! ### References -/

theorem holds_of_linkId {arena : Arena} {index : Nat} {id : Id arena}
    (linked : document.linkId arena index = .ok id) : document.Holds id.item := by
  obtain ⟨inside, rfl⟩ := linkId_eq_ok_iff.mp linked
  exact inside

theorem holds_of_linkPackage? {index : Option Nat} {package : Option PackageId}
    (linked : document.linkPackage? index = .ok package) {link : Item}
    (member : link ∈ (package.map Id.item).toList) : document.Holds link := by
  cases index with
  | none =>
    cases linked
    cases member
  | some index =>
    obtain ⟨id, isId, rfl⟩ := Success.bind_return_eq_ok_iff.mp linked
    rw [List.mem_singleton.mp member]
    exact holds_of_linkId isId

theorem holds_of_linkRef {ref : Ref} {id : TypeId}
    (linked : document.linkRef ref = .ok (.defined id)) : document.Holds id.item := by
  cases ref with
  | index index =>
    obtain ⟨found, isId, ⟨⟩⟩ := Success.bind_return_eq_ok_iff.mp linked
    exact holds_of_linkId isId
  | name name =>
    simp only [linkRef] at linked
    split at linked <;> cases linked

/-- The values of a map are linked one by one. -/
theorem exists_of_mem_linkMap {α β : Type} {link : String → α → Except Fault β}
    {map : OrderedMap String α} {linked : OrderedMap String β} (isLinked : linkMap link map = .ok linked)
    {value : β} (member : value ∈ linked.values) :
    ∃ name element, link name element = .ok value := by
  obtain ⟨entries, areEntries, rfl⟩ := Success.bind_return_eq_ok_iff.mp isLinked
  obtain ⟨key, inMap⟩ := (OrderedMap.mem_values_iff _).mp member
  obtain ⟨entry, -, isFound⟩ := Success.exists_of_mem_right (Success.mapM_eq_ok_iff.mp areEntries)
    (OrderedMap.mem_entries_ofList inMap)
  obtain ⟨found, isValue, ⟨⟩⟩ := Success.bind_return_eq_ok_iff.mp isFound
  exact ⟨entry.1, entry.2, isValue⟩

theorem holds_of_linkIndices {arena : Arena} {map : OrderedMap String Nat}
    {linked : OrderedMap String (Id arena)} (isLinked : document.linkIndices arena map = .ok linked)
    {link : Item} (member : link ∈ linked.values.map Id.item) : document.Holds link := by
  obtain ⟨id, isValue, rfl⟩ := List.mem_map.mp member
  obtain ⟨_, _, isId⟩ := exists_of_mem_linkMap isLinked isValue
  exact holds_of_linkId isId

/-! ### Types and functions -/

theorem holds_of_linkType {record : TypeRecord} {type : TypeDef}
    (linked : document.linkType record = .ok type) {link : Item} (member : link ∈ type.links) :
    document.Holds link := by
  obtain ⟨owner, isOwner, rest⟩ := Success.bind_eq_ok_iff.mp linked
  obtain ⟨kind, isKind, rfl⟩ := Success.bind_return_eq_ok_iff.mp rest
  rcases List.mem_append.mp member with owned | mentioned
  · unfold linkOwner at isOwner
    split at isOwner
    · obtain ⟨id, isId, rfl⟩ := Success.bind_return_eq_ok_iff.mp isOwner
      rw [List.mem_singleton.mp owned]
      exact holds_of_linkId isId
    · obtain ⟨id, isId, rfl⟩ := Success.bind_return_eq_ok_iff.mp isOwner
      rw [List.mem_singleton.mp owned]
      exact holds_of_linkId isId
    · cases isOwner
      cases owned
  · obtain ⟨id, isDirect, rfl⟩ := List.mem_map.mp mentioned
    rcases Kind.exists_of_mem_mentions isKind (Kind.mem_directIds_iff.mp isDirect) with
      ⟨_, _, isId, ⟨⟩⟩ | ⟨_, isRef⟩
    · exact holds_of_linkId isId
    · exact holds_of_linkRef isRef

theorem holds_of_linkFunctionKind {record : FunctionKind Nat} {kind : FunctionKind TypeId}
    (linked : document.linkFunctionKind record = .ok kind) {id : TypeId}
    (own : kind.resource? = some id) : document.Holds id.item := by
  cases record with
  | freestanding =>
    cases linked
    cases own
  | method index | static index | constructor index =>
    obtain ⟨found, isId, rfl⟩ := Success.bind_return_eq_ok_iff.mp linked
    cases own
    exact holds_of_linkId isId

theorem holds_of_linkParams {records : List (Param Ref)} {params : List (Param TypeRef)}
    (linked : document.linkParams records = .ok params) {id : TypeId}
    (member : .defined id ∈ params.map Param.type) : document.Holds id.item := by
  obtain ⟨param, isParam, isType⟩ := List.mem_map.mp member
  obtain ⟨record, -, isFound⟩ :=
    Success.exists_of_mem_right (Success.mapM_eq_ok_iff.mp linked) isParam
  obtain ⟨type, isRef, rfl⟩ := Success.bind_return_eq_ok_iff.mp isFound
  cases isType
  exact holds_of_linkRef isRef

theorem holds_of_linkResults {result : Option Ref} {records : Option (List (Param Ref))}
    {results : Results} (linked : document.linkResults result records = .ok results) {id : TypeId}
    (member : .defined id ∈ results.types) : document.Holds id.item := by
  unfold linkResults at linked
  split at linked
  · cases linked
  · obtain ⟨type, isRef, rfl⟩ := Success.bind_return_eq_ok_iff.mp linked
    rw [← List.mem_singleton.mp member] at isRef
    exact holds_of_linkRef isRef
  · obtain ⟨params, areParams, rfl⟩ := Success.bind_return_eq_ok_iff.mp linked
    refine holds_of_linkParams areParams ?_
    unfold Results.ofList at member
    split at member
    · split at member
      · exact member
      · exact member
    · exact member
  · cases linked
    cases member

theorem holds_of_linkFunction {record : FunctionRecord} {function : Function}
    (linked : document.linkFunction record = .ok function) {id : TypeId}
    (member : id ∈ function.mentionedIds) : document.Holds id.item := by
  obtain ⟨kind, isKind, rest⟩ := Success.bind_eq_ok_iff.mp linked
  obtain ⟨params, areParams, rest⟩ := Success.bind_eq_ok_iff.mp rest
  obtain ⟨results, areResults, rfl⟩ := Success.bind_return_eq_ok_iff.mp rest
  rcases Function.mem_mentionedIds_iff.mp member with own | mentioned
  · exact holds_of_linkFunctionKind isKind own
  · rcases List.mem_append.mp mentioned with inParams | inResults
    · exact holds_of_linkParams areParams inParams
    · exact holds_of_linkResults areResults inResults

/-! ### Interfaces, worlds and packages -/

theorem holds_of_linkInterface {record : InterfaceRecord} {interface : Interface}
    (linked : document.linkInterface record = .ok interface) {link : Item}
    (member : link ∈ interface.links) : document.Holds link := by
  obtain ⟨types, areTypes, rest⟩ := Success.bind_eq_ok_iff.mp linked
  obtain ⟨functions, areFunctions, rest⟩ := Success.bind_eq_ok_iff.mp rest
  obtain ⟨package, isPackage, rfl⟩ := Success.bind_return_eq_ok_iff.mp rest
  simp only [Interface.links, List.mem_append, List.mem_flatMap] at member
  rcases member with (inTypes | ⟨function, isFunction, inside⟩) | inPackage
  · exact holds_of_linkIndices areTypes inTypes
  · obtain ⟨_, _, isFound⟩ := exists_of_mem_linkMap areFunctions isFunction
    obtain ⟨id, mentioned, rfl⟩ := List.mem_map.mp inside
    exact holds_of_linkFunction (within_eq_ok_iff.mp isFound) mentioned
  · exact holds_of_linkPackage? isPackage inPackage

theorem holds_of_linkItem {record : ItemRecord} {item : WorldItem}
    (linked : document.linkItem record = .ok item) {link : Item} (member : link ∈ item.links) :
    document.Holds link := by
  unfold linkItem at linked
  split at linked
  · obtain ⟨id, isId, rfl⟩ := Success.bind_return_eq_ok_iff.mp linked
    rw [List.mem_singleton.mp member]
    exact holds_of_linkId isId
  · obtain ⟨function, isFunction, rfl⟩ := Success.bind_return_eq_ok_iff.mp linked
    obtain ⟨id, mentioned, rfl⟩ := List.mem_map.mp member
    exact holds_of_linkFunction isFunction mentioned
  · obtain ⟨id, isId, rfl⟩ := Success.bind_return_eq_ok_iff.mp linked
    rw [List.mem_singleton.mp member]
    exact holds_of_linkId isId
  · cases linked

/-- A key that is an interface is the one that stands under it. -/
theorem interface_of_keyOf {text : String} {item : WorldItem} {id : InterfaceId}
    (isKey : (keyOf text item).interface? = some id) : item.interface? = some id := by
  unfold keyOf at isKey
  split at isKey
  · split at isKey
    · exact isKey
    · cases isKey
  · cases isKey

/-- An entry of a world that is linked has been linked from a record, and its key is a name or the
interface that stands under it. -/
theorem exists_of_mem_linkItems {records : OrderedMap String ItemRecord}
    {items : OrderedMap WorldKey WorldItem} (linked : document.linkItems records = .ok items)
    {entry : WorldKey × WorldItem} (member : entry ∈ items.entries) :
    (∃ record, document.linkItem record = .ok entry.2)
      ∧ ∀ id, entry.1.interface? = some id → entry.2.interface? = some id := by
  obtain ⟨entries, areEntries, rfl⟩ := Success.bind_return_eq_ok_iff.mp linked
  obtain ⟨record, -, isFound⟩ := Success.exists_of_mem_right (Success.mapM_eq_ok_iff.mp areEntries)
    (OrderedMap.mem_entries_ofList member)
  obtain ⟨item, isItem, rfl⟩ := Success.bind_return_eq_ok_iff.mp isFound
  exact ⟨⟨record.2, within_eq_ok_iff.mp isItem⟩, fun _ => interface_of_keyOf⟩

theorem exists_of_mem_linkWorld {record : WorldRecord} {world : World}
    (linked : document.linkWorld record = .ok world) {entry : WorldKey × WorldItem}
    (member : entry ∈ world.entries) :
    (∃ record, document.linkItem record = .ok entry.2)
      ∧ ∀ id, entry.1.interface? = some id → entry.2.interface? = some id := by
  obtain ⟨imports, areImports, rest⟩ := Success.bind_eq_ok_iff.mp linked
  obtain ⟨exports, areExports, rest⟩ := Success.bind_eq_ok_iff.mp rest
  obtain ⟨package, -, rfl⟩ := Success.bind_return_eq_ok_iff.mp rest
  rcases List.mem_append.mp member with imported | exported
  · exact exists_of_mem_linkItems (within_eq_ok_iff.mp areImports) imported
  · exact exists_of_mem_linkItems (within_eq_ok_iff.mp areExports) exported

theorem holds_of_linkWorld {record : WorldRecord} {world : World}
    (linked : document.linkWorld record = .ok world) {link : Item} (member : link ∈ world.links) :
    document.Holds link := by
  rcases List.mem_append.mp member with inEntries | inPackage
  · obtain ⟨entry, isEntry, inside⟩ := List.mem_flatMap.mp inEntries
    obtain ⟨⟨_, isItem⟩, sameKey⟩ := exists_of_mem_linkWorld linked isEntry
    rcases List.mem_append.mp inside with inKey | inItem
    · obtain ⟨id, isKey, rfl⟩ := Option.map_eq_some_iff.mp (Option.mem_toList.mp inKey)
      have isInterface := sameKey id isKey
      refine holds_of_linkItem isItem ?_
      cases item : entry.2 <;> rw [item] at isInterface <;> cases isInterface
      exact List.mem_singleton_self _
    · exact holds_of_linkItem isItem inItem
  · obtain ⟨imports, -, rest⟩ := Success.bind_eq_ok_iff.mp linked
    obtain ⟨exports, -, rest⟩ := Success.bind_eq_ok_iff.mp rest
    obtain ⟨package, isPackage, rfl⟩ := Success.bind_return_eq_ok_iff.mp rest
    exact holds_of_linkPackage? isPackage inPackage

theorem holds_of_linkPackage {name : Ident} {record : PackageRecord} {package : Package}
    (linked : document.linkPackage name record = .ok package) {link : Item}
    (member : link ∈ package.links) : document.Holds link := by
  obtain ⟨interfaces, areInterfaces, rest⟩ := Success.bind_eq_ok_iff.mp linked
  obtain ⟨worlds, areWorlds, rfl⟩ := Success.bind_return_eq_ok_iff.mp rest
  rcases List.mem_append.mp member with inInterfaces | inWorlds
  · exact holds_of_linkIndices areInterfaces inInterfaces
  · exact holds_of_linkIndices areWorlds inWorlds

end Document

end WitGraph
