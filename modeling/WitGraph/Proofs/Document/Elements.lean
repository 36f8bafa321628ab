/-
**Interfaces, worlds and packages are denoted and restored.**

The keys of imports and exports are texts in a document and may be interfaces in a graph;
`text_keyOf` says that no key changes its text on the way. What is written of a world denotes the world
with its keys read again (`denotes_world`); where they have been read before, they are the same
(`restores_world`).
-/

import WitGraph.Proofs.Document.Functions
import WitGraph.Proofs.Document.Linked
import WitGraph.Proofs.Ident

namespace WitGraph.Document

open Json (Fields)

/-- A key is written as it was read. -/
theorem text_keyOf (text : String) (item : WorldItem) : (keyOf text item).text = text := by
  cases item with
  | interface id stability =>
    by_cases same : text = (WorldKey.interface id).text
    · rw [keyOf, if_pos same, same]
    · rw [keyOf, if_neg same]
      rfl
  | function func => rfl
  | type id => rfl

/-- A mark of stability nests two records at most. -/
theorem isSelfContained_stability (depth : Nat) (stability : Stability) :
    stability.toJson.isSelfContained (depth + 2) = true := by
  have deprecation (depth : Nat) (deprecated : Option Version) :
      ((Stability.deprecatedMembers deprecated).all fun member =>
        member.2.isSelfContained depth) = true := by
    cases deprecated <;> simp [Stability.deprecatedMembers, Json.text, Json.isSelfContained]
  cases stability with
  | unknown => rfl
  | stable since deprecated =>
    have members := deprecation depth deprecated
    simp [Stability.toJson, Json.record, Json.text, Json.isSelfContained] at members ⊢
    exact members
  | unstable feature deprecated =>
    have members := deprecation depth deprecated
    simp [Stability.toJson, Json.record, Json.text, Json.isSelfContained] at members ⊢
    exact members

/-- An interface reference is shallow and in range. -/
theorem isSelfContained_interfaceRef {index : Nat} (fits : index < Number.wordLimit)
    (stability : Stability) :
    (Json.record (("id", .nat index) :: stability.members)).isSelfContained (maxDepth - itemDepth)
      = true := by
  have inRange : Number.isInRange { whole := Nat.toDigits 10 index } = true := by
    simp [Number.isInRange, Number.isInteger, Nat.ofDigitChars_ten_toDigits, fits]
  have mark := isSelfContained_stability 119 stability
  have deep : maxDepth - itemDepth = 119 + 2 + 1 := rfl
  rw [deep]
  unfold Stability.members
  split <;> simp [Json.record, Json.nat, Json.isSelfContained, inRange, mark]

theorem readInterfaceRef?_toJson {index : Nat} (fits : index < Number.wordLimit)
    {stability : Stability} (normal : stability.IsNormal) :
    readInterfaceRef? (.record (("id", .nat index) :: stability.members))
      = some (.interface index stability) := by
  have fields := Json.fields?_record ["id", "stability"] ["id", "stability"]
    (("id", .nat index) :: stability.members) ((keys_stabilityMembers stability).cons_cons "id")
    (by simp) (by simp)
  have isMark : stabilityOf? ([("id", .nat index)] ++ stability.members ++ []) = some stability :=
    stabilityOf?_append normal (by simp) rfl
  rw [List.append_nil, List.singleton_append] at isMark
  have whole := isSelfContained_interfaceRef fits stability
  have isId : Fields.required? (("id", .nat index) :: stability.members) "id" Json.index?
      = some index := by
    rw [Fields.required?, List.lookup_cons_self, Option.bind_some, Json.index?_nat fits]
  unfold Json.record at whole fields ⊢
  rw [readInterfaceRef?, if_pos whole, fields]
  simp only [Option.bind_eq_bind, Option.bind_some, isId, isMark, Option.pure_def]

/-- An interface reference is read from a position, and its stability can be read. -/
theorem exists_of_readInterfaceRef? {json : Json} {record : ItemRecord}
    (found : readInterfaceRef? json = some record) :
    ∃ index stability, record = .interface index stability
      ∧ (∃ json, Json.index? json = some index) ∧ stability.IsNormal := by
  unfold readInterfaceRef? at found
  split at found
  · obtain ⟨index, readIndex, ⟨⟩⟩ := Option.bind_eq_some_iff.mp found
    exact ⟨index, .unknown, rfl, ⟨.number _, readIndex⟩, trivial⟩
  · split at found
    · simp only [Option.bind_eq_bind, Option.bind_eq_some_iff, Option.pure_def,
        Option.some.injEq] at found
      obtain ⟨_, -, index, isIndex, stability, isStability, rfl⟩ := found
      exact ⟨index, stability, rfl, Json.exists_of_required? isIndex,
        isNormal_of_stabilityOf? isStability⟩
    · cases found
  · cases found

variable {document rewritten : Document}

theorem denotes_within_iff {α β : Type} {read : Json → Option α} {link : α → Except Fault β}
    {place : Place} {json : Json} {value : β} :
    Denotes read (fun record => within place (link record)) json value
      ↔ Denotes read link json value := by
  simp only [Denotes, within_eq_ok_iff]

/-! ### Interfaces -/

theorem denotes_functions {functions : OrderedMap String Function}
    (each : ∀ function ∈ functions.values,
      Denotes readFunction? document.linkFunction function.toJson function) :
    Denotes (readMap? readFunction?)
      (linkMap fun name function => within (.function name) (document.linkFunction function))
      (functions.toJson (fun name => name) Function.toJson) functions :=
  denotes_map fun entry inside => denotes_within_iff.mpr
    (each entry.2 (functions.mem_values_iff.mpr ⟨entry.1, inside⟩))

/-- An interface is denoted if its parts are. -/
theorem denotes_interface {interface : Interface}
    (types : Denotes (readMap? Json.index?) (document.linkIndices .type)
      (Id.mapToJson interface.types) interface.types)
    (functions : Denotes (readMap? readFunction?)
      (linkMap fun name function => within (.function name) (document.linkFunction function))
      (interface.functions.toJson (fun name => name) Function.toJson) interface.functions)
    (package : Denotes (Json.nullable? Json.index?) document.linkPackage?
      (Id.optionToJson interface.package) interface.package)
    (normal : interface.stability.IsNormal) :
    Denotes readInterface? document.linkInterface interface.toJson interface := by
  obtain ⟨name, typeIds, functionValues, docs, stability, packageId⟩ := interface
  obtain ⟨typeRecords, readTypes, linkedTypes⟩ := types
  obtain ⟨functionRecords, readFunctions, linkedFunctions⟩ := functions
  obtain ⟨packageRecord, readPackage, linkedPackage⟩ := package
  refine ⟨⟨name, typeRecords, functionRecords, packageRecord, docs, stability⟩, ?_, ?_⟩
  · obtain ⟨fields, isFields, isDocs, isMark, others⟩ :=
      read_annotated
        (Interface.toJson ⟨name, typeIds, functionValues, docs, stability, packageId⟩)
        ["name", "types", "functions", "package", "docs", "stability"]
        [("name", .ofOption (name.map Json.text)), ("types", Id.mapToJson typeIds),
          ("functions", functionValues.toJson (fun name => name) Function.toJson)] docs
        [("package", Id.optionToJson packageId)] normal (by simp [Interface.toJson]) (by simp)
        (by simp)
    simp [readInterface?, isFields, isDocs, isMark, Fields.nullable?, Fields.optional?, others,
      List.lookup_cons, readTypes, readFunctions, readPackage, Json.nullable?_text]
  · exact Success.bind_eq_ok_iff.mpr ⟨typeIds, linkedTypes,
      Success.bind_eq_ok_iff.mpr ⟨functionValues, linkedFunctions,
        Success.bind_eq_ok_iff.mpr ⟨packageId, linkedPackage, rfl⟩⟩⟩

/-! ### Worlds -/

theorem denotes_interfaceItem {id : InterfaceId} {stability : Stability}
    (addressed : document.Addresses id.item) (normal : stability.IsNormal) :
    Denotes readItem? document.linkItem (WorldItem.interface id stability).toJson
      (.interface id stability) := by
  refine ⟨.interface id.index stability, ?_, Success.bind_eq_ok_iff.mpr ⟨id, ?_, rfl⟩⟩
  · simp only [readItem?, WorldItem.toJson, Json.alternative?_record, Id.toJson,
      Option.bind_eq_bind, Option.bind_some]
    exact readInterfaceRef?_toJson addressed.2 normal
  · exact linkId_eq_ok_iff.mpr ⟨addressed.1, rfl⟩

theorem denotes_typeItem {id : TypeId} (addressed : document.Addresses id.item) :
    Denotes readItem? document.linkItem (WorldItem.type id).toJson (.type id) := by
  obtain ⟨index, readIndex, linked⟩ := denotes_id addressed
  have readRef : readRef? id.toJson = some (.index index) :=
    congrArg (Option.map Ref.index) readIndex
  refine ⟨.type (.index index), ?_, Success.bind_eq_ok_iff.mpr ⟨id, linked, rfl⟩⟩
  simp [readItem?, WorldItem.toJson, Json.alternative?_record, readRef]

theorem denotes_functionItem {function : Function}
    (denotes : Denotes readFunction? document.linkFunction function.toJson function) :
    Denotes readItem? document.linkItem (WorldItem.function function).toJson (.function function) :=
  denotes.whole rfl fun _ => rfl

theorem linkItems_eq : document.linkItems
    = linkEntries (linkEntry keyOf fun name record => within (.item name) (document.linkItem record)) :=
  rfl

/-- Imports or exports are written as what denotes them with their keys read again. -/
theorem denotes_items {items : OrderedMap WorldKey WorldItem}
    (each : ∀ entry ∈ items.entries, Denotes readItem? document.linkItem entry.2.toJson entry.2) :
    Denotes (readMap? readItem?) document.linkItems (items.toJson WorldKey.text WorldItem.toJson)
      (items.respelled WorldKey.text keyOf) := by
  rw [linkItems_eq]
  exact denotes_entries fun entry inside => denotes_within_iff.mpr (each entry inside)

/-- A world with other imports and exports is denoted by what is written of a world if these are
denoted by what is written of its own. -/
theorem denotes_world {world : World} {imports exports : OrderedMap WorldKey WorldItem}
    (areImports : Denotes (readMap? readItem?) document.linkItems
      (world.imports.toJson WorldKey.text WorldItem.toJson) imports)
    (areExports : Denotes (readMap? readItem?) document.linkItems
      (world.exports.toJson WorldKey.text WorldItem.toJson) exports)
    (package : Denotes (Json.nullable? Json.index?) document.linkPackage?
      (Id.optionToJson world.package) world.package)
    (normal : world.stability.IsNormal) :
    Denotes readWorld? document.linkWorld world.toJson { world with imports, exports } := by
  obtain ⟨name, importItems, exportItems, packageId, docs, stability⟩ := world
  obtain ⟨importRecords, readImports, linkedImports⟩ := areImports
  obtain ⟨exportRecords, readExports, linkedExports⟩ := areExports
  obtain ⟨packageRecord, readPackage, linkedPackage⟩ := package
  refine ⟨⟨name, importRecords, exportRecords, packageRecord, docs, stability⟩, ?_, ?_⟩
  · obtain ⟨fields, isFields, isDocs, isMark, others⟩ :=
      read_annotated
        (World.toJson ⟨name, importItems, exportItems, packageId, docs, stability⟩)
        ["name", "imports", "exports", "package", "docs", "stability"]
        [("name", .text name), ("imports", importItems.toJson WorldKey.text WorldItem.toJson),
          ("exports", exportItems.toJson WorldKey.text WorldItem.toJson),
          ("package", Id.optionToJson packageId)] docs [] normal (by simp [World.toJson]) (by simp)
        (by simp)
    simp [readWorld?, isFields, isDocs, isMark, Fields.required?, Fields.nullable?,
      Fields.optional?, others, List.lookup_cons, readImports, readExports, readPackage,
      Json.text?_text]
  · exact Success.bind_eq_ok_iff.mpr ⟨imports, within_eq_ok_iff.mpr linkedImports,
      Success.bind_eq_ok_iff.mpr ⟨exports, within_eq_ok_iff.mpr linkedExports,
        Success.bind_eq_ok_iff.mpr ⟨packageId, linkedPackage, rfl⟩⟩⟩

/-! ### Packages -/

/-- A package with a name that can be read is linked under its name from what is written of it. -/
theorem exists_linksPackage {package : Package} (normal : package.name.IsNormal)
    (interfaces : Denotes (readMap? Json.index?) (document.linkIndices .interface)
      (Id.mapToJson package.interfaces) package.interfaces)
    (worlds : Denotes (readMap? Json.index?) (document.linkIndices .world)
      (Id.mapToJson package.worlds) package.worlds) :
    ∃ record, readPackage? package.toJson = some record ∧ document.LinksPackage record package := by
  obtain ⟨name, docs, interfaceIds, worldIds⟩ := package
  obtain ⟨interfaceRecords, readInterfaces, linkedInterfaces⟩ := interfaces
  obtain ⟨worldRecords, readWorlds, linkedWorlds⟩ := worlds
  refine ⟨⟨name.text, docs, interfaceRecords, worldRecords⟩, ?_, Ident.parse_text normal, ?_⟩
  · obtain ⟨fields, isFields, isDocs, others⟩ :=
      read_documented (Package.toJson ⟨name, docs, interfaceIds, worldIds⟩)
        ["name", "docs", "interfaces", "worlds"] [("name", .text name.text)] docs
        [("interfaces", Id.mapToJson interfaceIds), ("worlds", Id.mapToJson worldIds)]
        (by simp [Package.toJson]) (by simp) (by simp)
    simp [readPackage?, isFields, isDocs, Fields.required?, Fields.optional?, others,
      List.lookup_cons, readInterfaces, readWorlds, Json.text?_text]
  · exact Success.bind_eq_ok_iff.mpr ⟨interfaceIds, linkedInterfaces,
      Success.bind_eq_ok_iff.mpr ⟨worldIds, linkedWorlds, rfl⟩⟩

/-! ### What has been read -/

variable (sameSize : ∀ arena, rewritten.size arena = document.size arena)
include sameSize

theorem restores_functions :
    Restores (readMap? readFunction?)
      (linkMap fun name function => within (.function name) (document.linkFunction function))
      (linkMap fun name function => within (.function name) (rewritten.linkFunction function))
      (OrderedMap.toJson (fun name => name) Function.toJson) :=
  Restores.map fun _ _ _ _ found linked =>
    denotes_within_iff.mpr (restores_function sameSize found (within_eq_ok_iff.mp linked))

theorem restores_interface :
    Restores readInterface? document.linkInterface rewritten.linkInterface Interface.toJson := by
  intro json record interface found linked
  simp only [readInterface?, Option.bind_eq_bind, Option.bind_eq_some_iff, Option.pure_def,
    Option.some.injEq] at found
  obtain ⟨_, -, name, -, types, areTypes, functions, areFunctions, package, isPackage, docs, -,
    stability, isStability, rfl⟩ := found
  obtain ⟨linkedTypes, typeLinks, rest⟩ := Success.bind_eq_ok_iff.mp linked
  obtain ⟨linkedFunctions, functionLinks, rest⟩ := Success.bind_eq_ok_iff.mp rest
  obtain ⟨linkedPackage, packageLinks, rfl⟩ := Success.bind_return_eq_ok_iff.mp rest
  have noTypes : readMap? Json.index? (.object []) = some {} := rfl
  have noFunctions : readMap? readFunction? (.object []) = some {} := rfl
  obtain ⟨_, readTypes⟩ := Json.exists_of_optional? noTypes areTypes
  obtain ⟨_, readFunctions⟩ := Json.exists_of_optional? noFunctions areFunctions
  obtain ⟨_, readPackage⟩ := Json.exists_of_nullable? isPackage
  exact denotes_interface (restores_indices sameSize .type readTypes typeLinks)
    (restores_functions sameSize readFunctions functionLinks)
    (restores_package? sameSize readPackage packageLinks) (isNormal_of_stabilityOf? isStability)

/-- Interface references are restored, whether they have been read as positions or as records. -/
theorem restores_interfaceRef {json : Json} {record : ItemRecord} {item : WorldItem}
    (found : readInterfaceRef? json = some record) (linked : document.linkItem record = .ok item) :
    ∃ again, readItem? item.toJson = some again ∧ rewritten.linkItem again = .ok item := by
  obtain ⟨index, stability, rfl, ⟨_, readIndex⟩, normal⟩ := exists_of_readInterfaceRef? found
  obtain ⟨id, linkedId, rfl⟩ := Success.bind_return_eq_ok_iff.mp linked
  exact denotes_interfaceItem (addresses_of_index? sameSize readIndex linkedId) normal

theorem restores_item :
    Restores readItem? document.linkItem rewritten.linkItem WorldItem.toJson := by
  intro json record item found linked
  simp only [readItem?, Option.bind_eq_bind, Option.bind_eq_some_iff, Option.pure_def] at found
  obtain ⟨⟨name, contents⟩, -, found⟩ := found
  split at found
  · exact restores_interfaceRef sameSize found linked
  · exact (restores_function sameSize).whole
      (fun _ => rfl) (fun _ => rfl) (fun _ => rfl) found linked
  · obtain ⟨ref, readRef, ⟨⟩⟩ := Option.bind_eq_some_iff.mp found
    cases ref with
    | name name => cases linked
    | index index =>
      obtain ⟨id, linkedId, rfl⟩ := Success.bind_return_eq_ok_iff.mp linked
      exact denotes_typeItem (addresses_of_index? sameSize (index?_of_readRef? readRef) linkedId)
  · cases found

theorem restores_items :
    Restores (readMap? readItem?) document.linkItems rewritten.linkItems
      (OrderedMap.toJson WorldKey.text WorldItem.toJson) := by
  rw [linkItems_eq, linkItems_eq]
  exact Restores.entries text_keyOf fun _ _ _ _ found linked =>
    denotes_within_iff.mpr (restores_item sameSize found (within_eq_ok_iff.mp linked))

theorem restores_world :
    Restores readWorld? document.linkWorld rewritten.linkWorld World.toJson := by
  intro json record world found linked
  simp only [readWorld?, Option.bind_eq_bind, Option.bind_eq_some_iff, Option.pure_def,
    Option.some.injEq] at found
  obtain ⟨_, -, name, -, imports, areImports, exports, areExports, package, isPackage, docs, -,
    stability, isStability, rfl⟩ := found
  obtain ⟨linkedImports, importLinks, rest⟩ := Success.bind_eq_ok_iff.mp linked
  obtain ⟨linkedExports, exportLinks, rest⟩ := Success.bind_eq_ok_iff.mp rest
  obtain ⟨linkedPackage, packageLinks, rfl⟩ := Success.bind_return_eq_ok_iff.mp rest
  have noItems : readMap? readItem? (.object []) = some {} := rfl
  obtain ⟨_, readImports⟩ := Json.exists_of_optional? noItems areImports
  obtain ⟨_, readExports⟩ := Json.exists_of_optional? noItems areExports
  obtain ⟨_, readPackage⟩ := Json.exists_of_nullable? isPackage
  exact denotes_world (restores_items sameSize readImports (within_eq_ok_iff.mp importLinks))
    (restores_items sameSize readExports (within_eq_ok_iff.mp exportLinks))
    (restores_package? sameSize readPackage packageLinks) (isNormal_of_stabilityOf? isStability)

/-- Packages are restored, and so are their names. -/
theorem exists_package {json : Json} {record : PackageRecord} {package : Package}
    (found : readPackage? json = some record) (linked : document.LinksPackage record package) :
    ∃ again, readPackage? package.toJson = some again ∧ rewritten.LinksPackage again package := by
  simp only [readPackage?, Option.bind_eq_bind, Option.bind_eq_some_iff, Option.pure_def,
    Option.some.injEq] at found
  obtain ⟨_, -, name, -, docs, -, interfaces, areInterfaces, worlds, areWorlds, rfl⟩ := found
  obtain ⟨named, linked⟩ := linked
  obtain ⟨linkedInterfaces, interfaceLinks, rest⟩ := Success.bind_eq_ok_iff.mp linked
  obtain ⟨linkedWorlds, worldLinks, returned⟩ := Success.bind_eq_ok_iff.mp rest
  have noMembers : readMap? Json.index? (.object []) = some {} := rfl
  obtain ⟨_, readInterfaces⟩ := Json.exists_of_optional? noMembers areInterfaces
  obtain ⟨_, readWorlds⟩ := Json.exists_of_optional? noMembers areWorlds
  obtain ⟨ident, ownDocs, ownInterfaces, ownWorlds⟩ := package
  cases Success.pure_eq_ok_iff.mp returned
  exact exists_linksPackage (Ident.isNormal_of_parse named)
    (restores_indices sameSize .interface readInterfaces interfaceLinks)
    (restores_indices sameSize .world readWorlds worldLinks)

end WitGraph.Document
