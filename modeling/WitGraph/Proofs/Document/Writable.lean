/-
**What can be written and read again.**

Documents cannot state everything that entities can be: no pointers, no kinds that are not known, no
list of results that consists of one without a name, and only names and versions that can be read.
`IsWritable` leaves these out.

* `isWritable_of_ofJson?`: whatever has been read is writable;
* `Graph.IsWritable.ofJson?_toJson`: a writable graph whose links can be read is written as what is
  read and linked to the graph with the keys of its worlds read again (`Graph.respelled`);
* `Graph.respelled_eq_self_iff` says which graphs stay as they are.
-/

import WitGraph.Proofs.Document.Bounds
import WitGraph.Proofs.Document.RoundTrip
import WitGraph.Proofs.Items

namespace WitGraph

/-! ### Writable entities -/

/-- The results are not a list that would be read as one result without a name. -/
def Results.IsWritable : Results → Prop
  | .anonymous _ => True
  | .named params => Document.Results.ofList params = .named params

/-- Results and versions of the function can be read. -/
structure Function.IsWritable (function : Function) : Prop where
  results : function.results.IsWritable
  stability : function.stability.IsNormal

/-- The import or export can be read. -/
def WorldItem.IsWritable : WorldItem → Prop
  | .interface _ stability => stability.IsNormal
  | .function func => func.IsWritable
  | .type _ => True

/-- What stands in the world can be read. -/
structure World.IsWritable (world : World) : Prop where
  entries : ∀ entry ∈ world.entries, entry.2.IsWritable
  stability : world.stability.IsNormal

/-- What stands in the interface can be read. -/
structure Interface.IsWritable (interface : Interface) : Prop where
  functions : ∀ function ∈ interface.functions.values, function.IsWritable
  stability : interface.stability.IsNormal

/-- The kind and the versions of the definition can be read. -/
structure TypeDef.IsWritable (type : TypeDef) : Prop where
  kind : type.kind.IsWritable
  stability : type.stability.IsNormal

/-- The entity can be read from what is written of it, if its links can. -/
def Entity.IsWritable : {arena : Arena} → Entity arena → Prop
  | .package => fun (package : Package) => package.name.IsNormal
  | .world => World.IsWritable
  | .interface => Interface.IsWritable
  | .type => TypeDef.IsWritable

/-- All entities of the graph are writable. -/
def Graph.IsWritable (graph : Graph) : Prop :=
  ∀ (arena : Arena) (id : Id arena) (entity : Entity arena),
    graph.entity? id = some entity → entity.IsWritable

/-! ### Worlds with their keys read again -/

/-- The world with the keys of its imports and exports written as texts and read again. -/
def World.respelled (world : World) : World :=
  { world with
    imports := world.imports.respelled WorldKey.text Document.keyOf
    exports := world.exports.respelled WorldKey.text Document.keyOf }

/-- The graph with the keys of its worlds written as texts and read again. -/
def Graph.respelled (graph : Graph) : Graph :=
  { graph with worlds := graph.worlds.map World.respelled }

/-- No two keys of a side have the same text, and every key is read from its text. -/
def World.IsLegible (world : World) : Prop :=
  ∀ side, (world.side side).IsLegible WorldKey.text Document.keyOf

theorem World.respelled_eq_self_iff {world : World} : world.respelled = world ↔ world.IsLegible := by
  have sides : world.respelled = world
      ↔ world.imports.respelled WorldKey.text Document.keyOf = world.imports
        ∧ world.exports.respelled WorldKey.text Document.keyOf = world.exports := by
    constructor
    · intro same
      exact ⟨congrArg World.imports same, congrArg World.exports same⟩
    · rintro ⟨imports, exports⟩
      unfold respelled
      rw [imports, exports]
  rw [sides, OrderedMap.respelled_eq_self_iff Document.text_keyOf,
    OrderedMap.respelled_eq_self_iff Document.text_keyOf]
  constructor
  · rintro ⟨imports, exports⟩ (_ | _)
    · exact imports
    · exact exports
  · exact fun legible => ⟨legible .imports, legible .exports⟩

theorem Graph.respelled_eq_self_iff {graph : Graph} :
    graph.respelled = graph ↔ ∀ world ∈ graph.worlds, world.IsLegible := by
  have worlds : graph.respelled = graph ↔ graph.worlds.map World.respelled = graph.worlds := by
    constructor
    · exact congrArg Graph.worlds
    · intro same
      unfold respelled
      rw [same]
  rw [worlds, ← Array.toList_inj, Array.toList_map]
  conv_lhs => rhs; rw [← List.map_id graph.worlds.toList]
  simp only [List.map_inj_left, Array.mem_toList_iff, id, World.respelled_eq_self_iff]

namespace Document

variable {document : Document}

/-! ### What is writable is denoted -/

theorem statesResults_of_isWritable {results : Results} (writable : results.IsWritable)
    (addressed : ∀ id, .defined id ∈ results.types → document.Addresses id.item) :
    document.StatesResults results := by
  cases results with
  | anonymous type =>
    exact statesResults_anonymous
      (denotes_ref fun id same => addressed id (List.mem_singleton.mpr same.symm))
  | named params => exact statesResults_named (denotes_params addressed) writable

theorem denotes_function_of_isWritable {function : Function} (writable : function.IsWritable)
    (addressed : ∀ id ∈ function.mentionedIds, document.Addresses id.item) :
    Denotes readFunction? document.linkFunction function.toJson function := by
  refine denotes_function (denotes_functionKind fun id own => ?_) (denotes_params fun id inside => ?_)
    (statesResults_of_isWritable writable.results fun id inside => ?_) writable.stability
  · exact addressed id (Function.mem_mentionedIds_iff.mpr (Or.inl own))
  · exact addressed id
      (Function.mem_mentionedIds_iff.mpr (Or.inr (List.mem_append_left _ inside)))
  · exact addressed id
      (Function.mem_mentionedIds_iff.mpr (Or.inr (List.mem_append_right _ inside)))

theorem denotes_item_of_isWritable {item : WorldItem} (writable : item.IsWritable)
    (addressed : ∀ link ∈ item.links, document.Addresses link) :
    Denotes readItem? document.linkItem item.toJson item := by
  cases item with
  | interface id stability =>
    exact denotes_interfaceItem (addressed id.item (List.mem_singleton_self _)) writable
  | function function =>
    exact denotes_functionItem (denotes_function_of_isWritable writable fun id inside =>
      addressed id.item (List.mem_map_of_mem inside))
  | type id => exact denotes_typeItem (addressed id.item (List.mem_singleton_self _))

theorem denotes_package?_of_links {package : Option PackageId}
    (addressed : ∀ link ∈ (package.map Id.item).toList, document.Addresses link) :
    Denotes (Json.nullable? Json.index?) document.linkPackage? (Id.optionToJson package) package :=
  denotes_package? fun id inside =>
    addressed id.item (Option.mem_toList.mpr (Option.mem_map_of_mem Id.item inside))

/-- **A writable world is written as what denotes it with its keys read again.** -/
theorem denotes_world_of_isWritable {world : World} (writable : world.IsWritable)
    (addressed : ∀ link ∈ world.links, document.Addresses link) :
    Denotes readWorld? document.linkWorld world.toJson world.respelled := by
  obtain ⟨entries, package⟩ := List.forall_mem_append.mp addressed
  have each (entry : WorldKey × WorldItem) (member : entry ∈ world.entries) :
      Denotes readItem? document.linkItem entry.2.toJson entry.2 := by
    refine denotes_item_of_isWritable (writable.entries entry member) fun link isLink => ?_
    exact entries link (List.mem_flatMap.mpr ⟨entry, member, List.mem_append_right _ isLink⟩)
  obtain ⟨imports, exports⟩ := List.forall_mem_append.mp each
  exact denotes_world (denotes_items imports) (denotes_items exports)
    (denotes_package?_of_links package) writable.stability

theorem denotes_interface_of_isWritable {interface : Interface} (writable : interface.IsWritable)
    (addressed : ∀ link ∈ interface.links, document.Addresses link) :
    Denotes readInterface? document.linkInterface interface.toJson interface := by
  unfold Interface.links at addressed
  obtain ⟨inner, package⟩ := List.forall_mem_append.mp addressed
  obtain ⟨types, functions⟩ := List.forall_mem_append.mp inner
  refine denotes_interface (denotes_indices fun id inside => types _ (List.mem_map_of_mem inside))
    (denotes_functions fun function inside => ?_) (denotes_package?_of_links package)
    writable.stability
  refine denotes_function_of_isWritable (writable.functions function inside) fun id mentioned => ?_
  exact functions _ (List.mem_flatMap.mpr ⟨function, inside, List.mem_map_of_mem mentioned⟩)

theorem denotes_type_of_isWritable {type : TypeDef} (writable : type.IsWritable)
    (addressed : ∀ link ∈ type.links, document.Addresses link) :
    Denotes readType? document.linkType type.toJson type := by
  obtain ⟨owner, mentions⟩ := List.forall_mem_append.mp addressed
  refine denotes_type (denotes_kind writable.kind fun id mentioned => ?_)
    (denotes_owner fun item owns => owner item (Option.mem_toList.mpr owns)) writable.stability
  exact mentions _ (List.mem_map_of_mem (Kind.mem_directIds_iff.mpr mentioned))

theorem exists_linksPackage_of_isNormal {package : Package} (normal : package.name.IsNormal)
    (addressed : ∀ link ∈ package.links, document.Addresses link) :
    ∃ record, readPackage? package.toJson = some record ∧ document.LinksPackage record package := by
  obtain ⟨interfaces, worlds⟩ := List.forall_mem_append.mp addressed
  exact exists_linksPackage normal
    (denotes_indices fun id inside => interfaces _ (List.mem_map_of_mem inside))
    (denotes_indices fun id inside => worlds _ (List.mem_map_of_mem inside))

/-! ### Writable graphs -/

/-- The entities of a writable graph are written as records that are linked to them, the worlds with
their keys read again. -/
theorem exists_records_of_isWritable {graph : Graph} (writable : graph.IsWritable)
    (addressed : ∀ item, ∀ link ∈ graph.links item, document.Addresses link) :
    ∃ records, ofJson? graph.toJson = some records ∧ document.LinkedIn records graph.respelled := by
  have holds (arena : Arena) (entity : Entity arena) (inside : entity ∈ (graph.arena arena).toList) :
      entity.IsWritable ∧ ∀ link ∈ entity.links, document.Addresses link := by
    obtain ⟨index, isEntity⟩ := Array.getElem?_of_mem (Array.mem_toList_iff.mp inside)
    have found : graph.entity? (⟨index⟩ : Id arena) = some entity := isEntity
    refine ⟨writable arena _ entity found, fun link isLink => addressed ⟨arena, index⟩ link ?_⟩
    rwa [Graph.links_of_entity? found]
  obtain ⟨worlds, areWorlds, worldLinks⟩ := exists_mapM fun world inside =>
    denotes_world_of_isWritable (holds .world world inside).1 (holds .world world inside).2
  obtain ⟨interfaces, areInterfaces, interfaceLinks⟩ := exists_mapM fun interface inside =>
    denotes_interface_of_isWritable (holds .interface interface inside).1
      (holds .interface interface inside).2
  obtain ⟨types, areTypes, typeLinks⟩ := exists_mapM fun type inside =>
    denotes_type_of_isWritable (holds .type type inside).1 (holds .type type inside).2
  obtain ⟨packages, arePackages, packageLinks⟩ := exists_mapM fun package inside =>
    exists_linksPackage_of_isNormal (holds .package package inside).1
      (holds .package package inside).2
  refine ⟨⟨worlds, interfaces, types, packages⟩,
    ofJson?_record areWorlds areInterfaces areTypes arePackages, typeLinks, interfaceLinks, ?_,
    packageLinks⟩
  rw [Graph.respelled, Array.toList_map]
  exact List.forall₂_map_right_iff.mpr worldLinks

/-! ### What has been read is writable -/

theorem isWritable_of_linkResults {result : Option Ref} {results : Option (List (Param Ref))}
    {value : Results} (linked : document.linkResults result results = .ok value) :
    value.IsWritable := by
  unfold linkResults at linked
  split at linked
  · cases linked
  · obtain ⟨type, -, rfl⟩ := Success.bind_return_eq_ok_iff.mp linked
    trivial
  · obtain ⟨params, -, rfl⟩ := Success.bind_return_eq_ok_iff.mp linked
    rcases Results.ofList_cases params with ⟨type, -, single⟩ | named
    · rw [single]
      trivial
    · rw [named]
      exact named
  · cases linked
    rfl

theorem isWritable_of_denotes_function {json : Json} {function : Function}
    (denoted : Denotes readFunction? document.linkFunction json function) :
    function.IsWritable := by
  obtain ⟨record, found, linked⟩ := denoted
  simp only [readFunction?, Option.bind_eq_bind, Option.bind_eq_some_iff, Option.pure_def,
    Option.some.injEq] at found
  obtain ⟨_, -, name, -, kind, -, params, -, result, -, results, -, docs, -, stability, isStability,
    rfl⟩ := found
  obtain ⟨_, -, rest⟩ := Success.bind_eq_ok_iff.mp linked
  obtain ⟨_, -, rest⟩ := Success.bind_eq_ok_iff.mp rest
  obtain ⟨_, resultLinks, rfl⟩ := Success.bind_return_eq_ok_iff.mp rest
  exact ⟨isWritable_of_linkResults resultLinks, isNormal_of_stabilityOf? isStability⟩

theorem isWritable_of_denotes_item {json : Json} {item : WorldItem}
    (denoted : Denotes readItem? document.linkItem json item) : item.IsWritable := by
  obtain ⟨record, found, linked⟩ := denoted
  simp only [readItem?, Option.bind_eq_bind, Option.bind_eq_some_iff, Option.pure_def] at found
  obtain ⟨⟨name, contents⟩, -, found⟩ := found
  split at found
  · obtain ⟨index, stability, rfl, -, normal⟩ := exists_of_readInterfaceRef? found
    obtain ⟨id, -, rfl⟩ := Success.bind_return_eq_ok_iff.mp linked
    exact normal
  · obtain ⟨record, readFunction, ⟨⟩⟩ := Option.bind_eq_some_iff.mp found
    obtain ⟨function, linkedFunction, rfl⟩ := Success.bind_return_eq_ok_iff.mp linked
    exact isWritable_of_denotes_function ⟨record, readFunction, linkedFunction⟩
  · obtain ⟨ref, -, ⟨⟩⟩ := Option.bind_eq_some_iff.mp found
    cases ref with
    | name name => cases linked
    | index index =>
      obtain ⟨id, -, rfl⟩ := Success.bind_return_eq_ok_iff.mp linked
      trivial
  · cases found

theorem isWritable_of_denotes_items {json : Json} {items : OrderedMap WorldKey WorldItem}
    (denoted : Denotes (readMap? readItem?) document.linkItems json items) :
    ∀ entry ∈ items.entries, entry.2.IsWritable := by
  rw [linkItems_eq] at denoted
  intro entry member
  obtain ⟨_, _, denotedItem, -⟩ := denoted.exists_of_mem_entries member
  exact isWritable_of_denotes_item (denotes_within_iff.mp denotedItem)

theorem isWritable_of_denotes_world {json : Json} {world : World}
    (denoted : Denotes readWorld? document.linkWorld json world) : world.IsWritable := by
  obtain ⟨record, found, linked⟩ := denoted
  simp only [readWorld?, Option.bind_eq_bind, Option.bind_eq_some_iff, Option.pure_def,
    Option.some.injEq] at found
  obtain ⟨_, -, name, -, imports, areImports, exports, areExports, package, -, docs, -, stability,
    isStability, rfl⟩ := found
  obtain ⟨_, importLinks, rest⟩ := Success.bind_eq_ok_iff.mp linked
  obtain ⟨_, exportLinks, rest⟩ := Success.bind_eq_ok_iff.mp rest
  obtain ⟨_, -, rfl⟩ := Success.bind_return_eq_ok_iff.mp rest
  have noItems : readMap? readItem? (.object []) = some {} := rfl
  obtain ⟨_, readImports⟩ := Json.exists_of_optional? noItems areImports
  obtain ⟨_, readExports⟩ := Json.exists_of_optional? noItems areExports
  refine ⟨List.forall_mem_append.mpr ⟨?_, ?_⟩, isNormal_of_stabilityOf? isStability⟩
  · exact isWritable_of_denotes_items ⟨imports, readImports, within_eq_ok_iff.mp importLinks⟩
  · exact isWritable_of_denotes_items ⟨exports, readExports, within_eq_ok_iff.mp exportLinks⟩

theorem isWritable_of_denotes_interface {json : Json} {interface : Interface}
    (denoted : Denotes readInterface? document.linkInterface json interface) :
    interface.IsWritable := by
  obtain ⟨record, found, linked⟩ := denoted
  simp only [readInterface?, Option.bind_eq_bind, Option.bind_eq_some_iff, Option.pure_def,
    Option.some.injEq] at found
  obtain ⟨_, -, name, -, types, -, functions, areFunctions, package, -, docs, -, stability,
    isStability, rfl⟩ := found
  obtain ⟨_, -, rest⟩ := Success.bind_eq_ok_iff.mp linked
  obtain ⟨linkedFunctions, functionLinks, rest⟩ := Success.bind_eq_ok_iff.mp rest
  obtain ⟨_, -, rfl⟩ := Success.bind_return_eq_ok_iff.mp rest
  have noFunctions : readMap? readFunction? (.object []) = some {} := rfl
  obtain ⟨json, readFunctions⟩ := Json.exists_of_optional? noFunctions areFunctions
  refine ⟨fun function isFunction => ?_, isNormal_of_stabilityOf? isStability⟩
  obtain ⟨key, inside⟩ := (OrderedMap.mem_values_iff _).mp isFunction
  have denotedMap : Denotes (readMap? readFunction?) (linkEntries (linkEntry (fun name _ => name)
      fun name record => within (.function name) (document.linkFunction record))) json
      linkedFunctions := ⟨functions, readFunctions, functionLinks⟩
  obtain ⟨_, _, denotedFunction, -⟩ := denotedMap.exists_of_mem_entries inside
  exact isWritable_of_denotes_function (denotes_within_iff.mp denotedFunction)

theorem isWritable_of_denotes_type {json : Json} {type : TypeDef}
    (denoted : Denotes readType? document.linkType json type) : type.IsWritable := by
  obtain ⟨record, found, linked⟩ := denoted
  simp only [readType?, Option.bind_eq_bind, Option.bind_eq_some_iff, Option.pure_def,
    Option.some.injEq] at found
  obtain ⟨_, -, name, -, kind, isKind, owner, -, docs, -, stability, isStability, rfl⟩ := found
  obtain ⟨_, -, rest⟩ := Success.bind_eq_ok_iff.mp linked
  obtain ⟨_, kindLinks, rfl⟩ := Success.bind_return_eq_ok_iff.mp rest
  obtain ⟨_, readKind⟩ := Json.exists_of_required? isKind
  exact ⟨isWritable_of_mapM (isWritable_of_readKind? readKind) kindLinks,
    isNormal_of_stabilityOf? isStability⟩

/-- **A graph that has been read is writable.** -/
theorem isWritable_of_ofJson? {json : Json} {graph : Graph} (found : ofJson? json = some document)
    (linked : document.Linked graph) : graph.IsWritable := by
  obtain ⟨⟨_, readWorlds⟩, ⟨_, readInterfaces⟩, ⟨_, readTypes⟩, -⟩ := exists_of_ofJson? found
  intro arena id entity isEntity
  have inside := Array.mem_toList_iff.mpr (Array.mem_of_getElem? isEntity)
  cases arena with
  | package =>
    obtain ⟨record, -, named, -⟩ := Success.exists_of_mem_right linked.packages inside
    exact Ident.isNormal_of_parse named
  | world =>
    obtain ⟨record, isRecord, isLinked⟩ := Success.exists_of_mem_right linked.worlds inside
    obtain ⟨_, readWorld⟩ := Json.exists_of_mem_items? readWorlds isRecord
    exact isWritable_of_denotes_world ⟨record, readWorld, isLinked⟩
  | interface =>
    obtain ⟨record, isRecord, isLinked⟩ := Success.exists_of_mem_right linked.interfaces inside
    obtain ⟨_, readInterface⟩ := Json.exists_of_mem_items? readInterfaces isRecord
    exact isWritable_of_denotes_interface ⟨record, readInterface, isLinked⟩
  | type =>
    obtain ⟨record, isRecord, isLinked⟩ := Success.exists_of_mem_right linked.types inside
    obtain ⟨_, readType⟩ := Json.exists_of_mem_items? readTypes isRecord
    exact isWritable_of_denotes_type ⟨record, readType, isLinked⟩

end Document

/-! ### Graphs that are read back -/

namespace Graph

variable {graph : Graph}

/-- Every position in the graph is a word. -/
def IsAddressable (graph : Graph) : Prop := ∀ arena, graph.size arena ≤ Number.wordLimit

/-- A document with as many records as the graph has entities. -/
def outline (graph : Graph) : Document where
  worlds := graph.worlds.toList.map fun world => { name := world.name }
  interfaces := graph.interfaces.toList.map fun interface => { name := interface.name }
  types := graph.types.toList.map fun type => { name := type.name, kind := .unknown }
  packages := graph.packages.toList.map fun package => { name := package.name.text }

theorem size_outline (arena : Arena) : graph.outline.size arena = graph.size arena := by
  cases arena <;> exact (List.length_map _).trans (Array.length_toList)

theorem size_respelled (arena : Arena) : graph.respelled.size arena = graph.size arena := by
  cases arena with
  | world => exact Array.size_map
  | _ => rfl

/-- **A writable graph is read from its text with the keys of its worlds read again.** -/
theorem IsWritable.reads_respelled (writable : graph.IsWritable) (closed : graph.IsClosed)
    (addressable : graph.IsAddressable)
    (named : enterNames {} 0 graph.packages.toList = (graph.packageNames, none)) :
    ofText graph.text = .ok graph.respelled := by
  have addressed {document : Document} (sameSize : ∀ arena, document.size arena = graph.size arena)
      (item : Item) (link : Item) (isLink : link ∈ graph.links item) : document.Addresses link := by
    have inside := closed item link isLink
    have holds : link.index < document.size link.arena := sameSize link.arena ▸ inside
    exact ⟨holds, Nat.lt_of_lt_of_le inside (addressable link.arena)⟩
  obtain ⟨again, readAgain, linkedAgain⟩ :=
    Document.exists_records_of_isWritable writable (addressed size_outline)
  -- the records are the same ones, whatever they are linked in
  obtain ⟨records, readRecords, linkedRecords⟩ := Document.exists_records_of_isWritable writable
    (addressed fun arena => (linkedAgain.size_eq arena).trans (size_respelled arena))
  cases readAgain.symm.trans readRecords
  exact ofText_text_of_ofJson? readAgain (Document.link_eq_ok_iff.mpr ⟨linkedRecords, named⟩)

end Graph

end WitGraph
