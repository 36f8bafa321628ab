/-
**Renaming ids.**

The links of an entity are all the ids in it:

* `Entity.rename_congr`: renamings that agree on the links give the same entity;
* `World.entries_side_rename`: a renaming that keeps the links apart merges no imports or exports;
* `Entity.exists_of_mem_links_rename`: the links of a renamed entity are renamed links, and a renaming
  that keeps the links apart loses none (`Entity.links_rename`).
-/

import Mathlib.Data.List.Nodup
import WitGraph.Graph.Basic
import WitGraph.Proofs.OrderedMap
import WitGraph.Proofs.References

namespace WitGraph

variable {via other : Renaming}

/-! ### Types -/

namespace TypeRef

theorem rename_congr (type : TypeRef) (agree : ∀ id, type.id? = some id → via id = other id) :
    type.rename via = type.rename other := by
  cases type with
  | primitive primitive => rfl
  | defined id => rw [rename, rename, agree id rfl]

theorem rename_rename (type : TypeRef) :
    (type.rename via).rename other = type.rename fun id => other (via id) := by
  cases type <;> rfl

theorem rename_self (type : TypeRef) : type.rename (fun id => id) = type := by
  cases type <;> rfl

theorem id?_rename (type : TypeRef) : (type.rename via).id? = type.id?.map via := by
  cases type <;> rfl

theorem filterMap_id?_rename (types : List TypeRef) :
    (types.map (rename via)).filterMap id? = (types.filterMap id?).map via := by
  rw [List.filterMap_map, List.map_filterMap]
  exact congrArg (fun step => types.filterMap step) (funext fun type => type.id?_rename)

/-- The types among some payloads are renamed with the payloads. -/
theorem filterMap_map_rename (payloads : List (Option TypeRef)) :
    (payloads.map (Option.map (rename via))).filterMap (fun payload => payload)
      = (payloads.filterMap fun payload => payload).map (rename via) := by
  rw [List.filterMap_map, List.map_filterMap]
  rfl

theorem map_rename_congr (type : Option TypeRef)
    (agree : ∀ id, type.bind id? = some id → via id = other id) :
    type.map (rename via) = type.map (rename other) := by
  cases type with
  | none => rfl
  | some type => exact congrArg some (rename_congr type agree)

end TypeRef

namespace Kind

/-- The payloads of renamed cases. -/
theorem map_type_rename (cases : List (Case TypeRef)) :
    (cases.map fun case => { case with type := case.type.map (TypeRef.rename via) }).map Case.type
      = (cases.map Case.type).map (Option.map (TypeRef.rename via)) := by
  rw [List.map_map, List.map_map]
  rfl

/-- Cases without payloads have nothing to rename. -/
theorem map_none_rename (cases : List Label) :
    (cases.map fun _ => (none : Option TypeRef)).map (Option.map (TypeRef.rename via))
      = cases.map fun _ => none := by
  rw [List.map_map]
  rfl

/-- Renamings that agree on the ids in a kind rename it alike. -/
theorem rename_congr {kind : TypeKind} (agree : ∀ id ∈ kind.directIds, via id = other id) :
    kind.rename via = kind.rename other := by
  cases kind with
  | resource | flags _ | enum _ | errorContext | unknown => rfl
  | own id | borrow id => simp [rename, agree id (List.mem_singleton_self id)]
  | option type | list type | pointer type | synonym type =>
    have same := TypeRef.rename_congr type fun id isId =>
      agree id (by simp [directIds, isId])
    rw [rename, rename, same]
  | future type | stream type =>
    have same := TypeRef.map_rename_congr type fun id isId =>
      agree id (by simp [directIds, isId])
    rw [rename, rename, same]
  | result ok err =>
    have sameOk := TypeRef.map_rename_congr ok fun id isId =>
      agree id (by simp [directIds, isId])
    have sameErr := TypeRef.map_rename_congr err fun id isId =>
      agree id (by simp [directIds, isId])
    rw [rename, rename, sameOk, sameErr]
  | tuple types =>
    refine congrArg tuple (List.map_congr_left fun type inside => ?_)
    exact TypeRef.rename_congr type fun id isId =>
      agree id (List.mem_filterMap.mpr ⟨type, inside, isId⟩)
  | record fields =>
    refine congrArg record (List.map_congr_left fun field inside => ?_)
    rw [TypeRef.rename_congr field.type fun id isId =>
      agree id (List.mem_filterMap.mpr ⟨field, inside, isId⟩)]
  | variant cases =>
    refine congrArg variant (List.map_congr_left fun case inside => ?_)
    rw [TypeRef.map_rename_congr case.type fun id isId =>
      agree id (List.mem_filterMap.mpr ⟨case, inside, isId⟩)]

theorem rename_rename (kind : TypeKind) :
    (kind.rename via).rename other = kind.rename fun id => other (via id) := by
  cases kind <;> simp [rename, TypeRef.rename_rename, Function.comp_def]

theorem rename_self (kind : TypeKind) : kind.rename (fun id => id) = kind := by
  have types : TypeRef.rename (fun id => id) = id := funext TypeRef.rename_self
  cases kind <;> simp [rename, types]

/-- A renaming that is undone on the ids in a kind is undone on the kind. -/
theorem rename_undone {kind : TypeKind} (undone : ∀ id ∈ kind.directIds, other (via id) = id) :
    (kind.rename via).rename other = kind := by
  have same : (kind.rename fun id => other (via id)) = kind.rename fun id => id :=
    rename_congr undone
  rw [rename_rename, same, rename_self]

theorem mentions_rename (kind : TypeKind) :
    (kind.rename via).mentions = kind.mentions.map (TypeRef.rename via) := by
  cases kind <;>
    simp [rename, mentions, TypeRef.rename, Option.toList_map, List.filterMap_map,
      List.map_filterMap, Function.comp_def]

theorem directIds_rename (kind : TypeKind) :
    (kind.rename via).directIds = kind.directIds.map via := by
  rw [directIds_eq_filterMap, mentions_rename, TypeRef.filterMap_id?_rename, directIds_eq_filterMap]

/-- Renaming does not make a kind unknown. -/
theorem rename_eq_unknown_iff {kind : TypeKind} : kind.rename via = .unknown ↔ kind = .unknown := by
  cases kind <;> simp [rename]

end Kind

/-! ### Functions -/

theorem FunctionKind.isMethod_rename (kind : FunctionKind TypeId) :
    (kind.rename via).isMethod = kind.isMethod := by
  cases kind <;> rfl

theorem Results.types_rename (results : Results) :
    (results.rename via).types = results.types.map (TypeRef.rename via) := by
  cases results <;> simp [rename, types, Function.comp_def]

namespace Function

theorem paramTypes_rename (function : Function) :
    (function.rename via).params.map Param.type
      = (function.params.map Param.type).map (TypeRef.rename via) := by
  rw [rename, List.map_map, List.map_map]
  rfl

theorem types_rename (function : Function) :
    (function.rename via).types = function.types.map (TypeRef.rename via) := by
  rw [types, types, List.map_append, paramTypes_rename]
  exact congrArg _ function.results.types_rename

theorem mentionedIds_rename (function : Function) :
    (function.rename via).mentionedIds = function.mentionedIds.map via := by
  have resource : (function.rename via).kind.resource? = function.kind.resource?.map via := by
    obtain ⟨name, kind, params, results, docs, stability⟩ := function
    cases kind <;> rfl
  rw [mentionedIds, mentionedIds, types_rename, TypeRef.filterMap_id?_rename, resource,
    Option.toList_map, List.map_append]

theorem signatureIds_rename (function : Function) :
    (function.rename via).signatureIds = function.signatureIds.map via := by
  have static : (function.rename via).staticResource? = function.staticResource?.map via := by
    obtain ⟨name, kind, params, results, docs, stability⟩ := function
    cases kind <;> rfl
  rw [signatureIds, signatureIds, types_rename, TypeRef.filterMap_id?_rename, static,
    Option.toList_map, List.map_append]

theorem rename_congr {function : Function} (agree : ∀ id ∈ function.mentionedIds, via id = other id) :
    function.rename via = function.rename other := by
  have inSignature (type : TypeRef) (inside : type ∈ function.types) :
      type.rename via = type.rename other :=
    TypeRef.rename_congr type fun id isId => agree id
      (List.mem_append_right _ (List.mem_filterMap.mpr ⟨type, inside, isId⟩))
  have inKind (id : TypeId) (isResource : function.kind.resource? = some id) : via id = other id :=
    agree id (List.mem_append_left _ (Option.mem_toList.mpr isResource))
  obtain ⟨name, kind, params, results, docs, stability⟩ := function
  have sameKind : kind.rename via = kind.rename other := by
    cases kind with
    | freestanding => rfl
    | method id | static id | constructor id =>
      rw [FunctionKind.rename, FunctionKind.rename, inKind id rfl]
  have sameParams : params.map (fun param => { param with type := param.type.rename via })
      = params.map (fun param => { param with type := param.type.rename other }) := by
    refine List.map_congr_left fun param inside => ?_
    rw [inSignature param.type (List.mem_append_left _ (List.mem_map_of_mem inside))]
  have sameResults : results.rename via = results.rename other := by
    cases results with
    | anonymous type =>
      rw [Results.rename, Results.rename,
        inSignature type (List.mem_append_right _ (List.mem_singleton_self type))]
    | named results =>
      refine congrArg Results.named (List.map_congr_left fun param inside => ?_)
      rw [inSignature param.type (List.mem_append_right _ (List.mem_map_of_mem inside))]
  simp only [rename, sameKind, sameParams, sameResults]

theorem rename_rename (function : Function) :
    (function.rename via).rename other = function.rename fun id => other (via id) := by
  obtain ⟨name, kind, params, results, docs, stability⟩ := function
  cases kind <;> cases results <;>
    simp [rename, FunctionKind.rename, Results.rename, TypeRef.rename_rename, Function.comp_def]

theorem rename_self (function : Function) : function.rename (fun id => id) = function := by
  obtain ⟨name, kind, params, results, docs, stability⟩ := function
  cases kind <;> cases results <;>
    simp [rename, FunctionKind.rename, Results.rename, TypeRef.rename_self]

/-- A renaming that is undone on the ids in a function is undone on the function. -/
theorem rename_undone {function : Function}
    (undone : ∀ id ∈ function.mentionedIds, other (via id) = id) :
    (function.rename via).rename other = function := by
  have same : (function.rename fun id => other (via id)) = function.rename fun id => id :=
    rename_congr undone
  rw [rename_rename, same, rename_self]

end Function

/-! ### Entities -/

/-- The item with its id renamed. -/
def Item.rename (via : Renaming) (item : Item) : Item := (via item.id).item

/-- Renamings agree on some items. -/
def Renaming.Agree (via other : Renaming) (links : List Item) : Prop :=
  ∀ link ∈ links, via link.id = other link.id

/-- Renamings that agree on items agree on the ids among them. -/
theorem Renaming.Agree.of_mem {links : List Item} (agree : Renaming.Agree via other links)
    {arena : Arena} {id : Id arena} (inside : id.item ∈ links) : via id = other id :=
  agree id.item inside

theorem map_item_rename {arena : Arena} (ids : List (Id arena)) :
    (ids.map fun id => via id).map Id.item = (ids.map Id.item).map (Item.rename via) := by
  rw [List.map_map, List.map_map]
  rfl

theorem map_item_rename? {arena : Arena} (id : Option (Id arena)) :
    ((id.map fun id => via id).map Id.item).toList
      = (id.map Id.item).toList.map (Item.rename via) := by
  cases id <;> rfl

theorem OrderedMap.values_mapValues {κ ν μ : Type} (map : OrderedMap κ ν) (change : ν → μ) :
    (map.mapValues change).values = map.values.map change := by
  simp [values, mapValues]

theorem OrderedMap.mapValues_self {κ ν : Type} (map : OrderedMap κ ν) :
    (map.mapValues fun value => value) = map :=
  OrderedMap.ext (List.map_id' map.entries)

/-- Maps are changed equally where their values are. -/
theorem OrderedMap.mapValues_congr {κ ν μ : Type} {map : OrderedMap κ ν} {change other : ν → μ}
    (agree : ∀ value ∈ map.values, change value = other value) :
    map.mapValues change = map.mapValues other := by
  refine OrderedMap.ext (List.map_congr_left fun entry inside => ?_)
  rw [agree entry.2 (List.mem_map_of_mem inside)]

namespace WorldItem

theorem links_rename (item : WorldItem) :
    (item.rename via).links = item.links.map (Item.rename via) := by
  cases item with
  | interface id stability => rfl
  | type id => rfl
  | function func =>
    rw [rename, links, links, Function.mentionedIds_rename]
    exact map_item_rename _

theorem rename_congr {item : WorldItem} (agree : Renaming.Agree via other item.links) :
    item.rename via = item.rename other := by
  cases item with
  | interface id stability =>
    rw [rename, rename, agree.of_mem (List.mem_singleton_self id.item)]
  | type id => rw [rename, rename, agree.of_mem (List.mem_singleton_self id.item)]
  | function func =>
    rw [rename, rename, Function.rename_congr fun id inside =>
      agree.of_mem (List.mem_map_of_mem inside)]

/-- An entry with its ids renamed. -/
def renameEntry (via : Renaming) (entry : WorldKey × WorldItem) : WorldKey × WorldItem :=
  (entry.1.rename via, entry.2.rename via)

/-- Ids that stay as they are leave imports and exports as they are. -/
theorem renameEntries_self (items : OrderedMap WorldKey WorldItem) :
    renameEntries (fun id => id) items = items := by
  have each (entry : WorldKey × WorldItem) : renameEntry (fun id => id) entry = entry := by
    obtain ⟨key, item⟩ := entry
    have sameFunction (func : Function) : func.rename (fun id => id) = func := func.rename_self
    cases key <;> cases item <;> simp [renameEntry, WorldKey.rename, rename, sameFunction]
  have entries : items.entries.map (renameEntry fun id => id) = items.entries := by
    rw [funext each, List.map_id']
  show OrderedMap.ofList (items.entries.map (renameEntry fun id => id)) = items
  rw [entries]
  exact OrderedMap.ext (OrderedMap.entries_ofList items.distinct)

theorem entryLinks_rename (entry : WorldKey × WorldItem) :
    entryLinks (renameEntry via entry) = (entryLinks entry).map (Item.rename via) := by
  obtain ⟨key, item⟩ := entry
  rw [renameEntry, entryLinks, entryLinks, links_rename, List.map_append]
  cases key <;> rfl

theorem renameEntry_congr {entry : WorldKey × WorldItem}
    (agree : Renaming.Agree via other (entryLinks entry)) :
    renameEntry via entry = renameEntry other entry := by
  obtain ⟨key, item⟩ := entry
  have sameItem : item.rename via = item.rename other :=
    rename_congr fun link inside => agree link (List.mem_append_right _ inside)
  have sameKey : key.rename via = key.rename other := by
    cases key with
    | name text => rfl
    | interface id =>
      have inside : id.item ∈ entryLinks (.interface id, item) := List.mem_cons_self ..
      rw [WorldKey.rename, WorldKey.rename, agree.of_mem inside]
  rw [renameEntry, renameEntry, sameKey, sameItem]

theorem renameEntries_congr {items : OrderedMap WorldKey WorldItem}
    (agree : Renaming.Agree via other (items.entries.flatMap entryLinks)) :
    renameEntries via items = renameEntries other items := by
  refine congrArg OrderedMap.ofList (List.map_congr_left fun entry inside => ?_)
  exact renameEntry_congr fun link isLink =>
    agree link (List.mem_flatMap.mpr ⟨entry, inside, isLink⟩)

/-- Renamed entries are those that are renamed. -/
theorem exists_of_mem_renameEntries {items : OrderedMap WorldKey WorldItem}
    {entry : WorldKey × WorldItem} (member : entry ∈ (renameEntries via items).entries) :
    ∃ original ∈ items.entries, renameEntry via original = entry :=
  List.mem_map.mp (OrderedMap.mem_entries_ofList member)

end WorldItem

theorem Package.rename_congr {package : Package} (agree : Renaming.Agree via other package.links) :
    package.rename via = package.rename other := by
  have sameInterfaces : package.interfaces.mapValues via = package.interfaces.mapValues other :=
    OrderedMap.mapValues_congr fun id inside =>
      agree.of_mem (List.mem_append_left _ (List.mem_map_of_mem inside))
  have sameWorlds : package.worlds.mapValues via = package.worlds.mapValues other :=
    OrderedMap.mapValues_congr fun id inside =>
      agree.of_mem (List.mem_append_right _ (List.mem_map_of_mem inside))
  rw [rename, rename, sameInterfaces, sameWorlds]

theorem map_package_congr {package : Option PackageId}
    (agree : Renaming.Agree via other (package.map Id.item).toList) :
    package.map via = package.map other := by
  cases package with
  | none => rfl
  | some id => exact congrArg some (agree.of_mem (List.mem_singleton_self id.item))

theorem World.rename_congr {world : World} (agree : Renaming.Agree via other world.links) :
    world.rename via = world.rename other := by
  have sameImports : WorldItem.renameEntries via world.imports
      = WorldItem.renameEntries other world.imports := by
    refine WorldItem.renameEntries_congr fun link inside => agree link ?_
    rw [links, entries, List.flatMap_append]
    exact List.mem_append_left _ (List.mem_append_left _ inside)
  have sameExports : WorldItem.renameEntries via world.exports
      = WorldItem.renameEntries other world.exports := by
    refine WorldItem.renameEntries_congr fun link inside => agree link ?_
    rw [links, entries, List.flatMap_append]
    exact List.mem_append_left _ (List.mem_append_right _ inside)
  have samePackage : world.package.map via = world.package.map other :=
    map_package_congr fun link inside => agree link (List.mem_append_right _ inside)
  rw [rename, rename, sameImports, sameExports, samePackage]

theorem Interface.rename_congr {interface : Interface}
    (agree : Renaming.Agree via other interface.links) :
    interface.rename via = interface.rename other := by
  have sameTypes : interface.types.mapValues via = interface.types.mapValues other :=
    OrderedMap.mapValues_congr fun id inside => agree.of_mem
      (List.mem_append_left _ (List.mem_append_left _ (List.mem_map_of_mem inside)))
  have sameFunctions : interface.functions.mapValues (Function.rename via)
      = interface.functions.mapValues (Function.rename other) := by
    refine OrderedMap.mapValues_congr fun function isFunction => ?_
    refine Function.rename_congr fun id inside => agree.of_mem ?_
    exact List.mem_append_left _ (List.mem_append_right _
      (List.mem_flatMap.mpr ⟨function, isFunction, List.mem_map_of_mem inside⟩))
  have samePackage : interface.package.map via = interface.package.map other :=
    map_package_congr fun link inside => agree link (List.mem_append_right _ inside)
  rw [rename, rename, sameTypes, sameFunctions, samePackage]

theorem TypeDef.rename_congr {type : TypeDef} (agree : Renaming.Agree via other type.links) :
    type.rename via = type.rename other := by
  have sameKind : type.kind.rename via = type.kind.rename other :=
    Kind.rename_congr fun id inside =>
      agree.of_mem (List.mem_append_right _ (List.mem_map_of_mem inside))
  have sameOwner : type.owner.rename via = type.owner.rename other := by
    have inOwner (link : Item) (isOwner : type.owner.item? = some link) :
        via link.id = other link.id :=
      agree link (List.mem_append_left _ (Option.mem_toList.mpr isOwner))
    cases owned : type.owner with
    | none => rfl
    | world id | interface id =>
      rw [owned] at inOwner
      exact congrArg _ (inOwner id.item rfl)
  rw [rename, rename, sameKind, sameOwner]

theorem Package.links_rename (package : Package) :
    (package.rename via).links = package.links.map (Item.rename via) := by
  simp only [rename, links, OrderedMap.values_mapValues, List.map_append]
  rw [map_item_rename, map_item_rename]

theorem Interface.links_rename (interface : Interface) :
    (interface.rename via).links = interface.links.map (Item.rename via) := by
  have functions (function : Function) :
      (function.rename via).mentionedIds.map Id.item
        = (function.mentionedIds.map Id.item).map (Item.rename via) := by
    rw [Function.mentionedIds_rename, map_item_rename]
  simp only [rename, links, OrderedMap.values_mapValues, List.map_append, List.flatMap_map,
    List.map_flatMap, functions]
  rw [map_item_rename, map_item_rename?]

theorem TypeDef.links_rename (type : TypeDef) :
    (type.rename via).links = type.links.map (Item.rename via) := by
  simp only [rename, links, Kind.directIds_rename, List.map_append]
  rw [map_item_rename]
  cases type.owner <;> rfl

/-- The links of a renamed world are renamed links. Not all links of the world need be among them:
entries whose keys become equal are merged. -/
theorem World.exists_of_mem_links_rename {world : World} {link : Item}
    (member : link ∈ (world.rename via).links) :
    ∃ original ∈ world.links, original.rename via = link := by
  rw [links, List.mem_append] at member
  rcases member with inEntries | inPackage
  · obtain ⟨entry, isEntry, inside⟩ := List.mem_flatMap.mp inEntries
    have isRenamed : ∃ original ∈ world.entries, WorldItem.renameEntry via original = entry := by
      rcases List.mem_append.mp isEntry with imported | exported
      · obtain ⟨original, isOriginal, same⟩ := WorldItem.exists_of_mem_renameEntries imported
        exact ⟨original, List.mem_append_left _ isOriginal, same⟩
      · obtain ⟨original, isOriginal, same⟩ := WorldItem.exists_of_mem_renameEntries exported
        exact ⟨original, List.mem_append_right _ isOriginal, same⟩
    obtain ⟨original, isOriginal, rfl⟩ := isRenamed
    rw [WorldItem.entryLinks_rename] at inside
    obtain ⟨before, isBefore, same⟩ := List.mem_map.mp inside
    exact ⟨before, List.mem_append_left _ (List.mem_flatMap.mpr ⟨original, isOriginal, isBefore⟩),
      same⟩
  · simp only [rename, map_item_rename?] at inPackage
    obtain ⟨before, isBefore, same⟩ := List.mem_map.mp inPackage
    exact ⟨before, List.mem_append_right _ isBefore, same⟩

/-! ### Renamings that keep items apart -/

/-- Distinct items have distinct new ids. -/
def Renaming.Separates (via : Renaming) (links : List Item) : Prop :=
  ∀ first ∈ links, ∀ second ∈ links, first.rename via = second.rename via → first = second

/-- Renaming merges no entries if it keeps their keys apart. -/
theorem WorldItem.entries_renameEntries {via : Renaming} {items : OrderedMap WorldKey WorldItem}
    (separates : via.Separates (items.entries.flatMap entryLinks)) :
    (renameEntries via items).entries = items.entries.map (renameEntry via) := by
  have inKey {key : WorldKey} {id : InterfaceId} (member : key ∈ items.entries.map Prod.fst)
      (isKey : key = .interface id) : id.item ∈ items.entries.flatMap entryLinks := by
    obtain ⟨entry, isEntry, rfl⟩ := List.mem_map.mp member
    refine List.mem_flatMap.mpr ⟨entry, isEntry, List.mem_append_left _ ?_⟩
    rw [isKey]
    exact List.mem_singleton_self _
  have apart (first : WorldKey) (isFirst : first ∈ items.entries.map Prod.fst) (second : WorldKey)
      (isSecond : second ∈ items.entries.map Prod.fst)
      (same : first.rename via = second.rename via) : first = second := by
    cases first with
    | name text =>
      cases second with
      | name other => exact same
      | interface id => cases same
    | interface id =>
      cases second with
      | name text => cases same
      | interface other =>
        have sameId : via id = via other := WorldKey.interface.inj same
        have sameItem := separates id.item (inKey isFirst rfl) other.item (inKey isSecond rfl)
          (congrArg Id.item sameId)
        rw [Id.item_injective sameItem]
  refine OrderedMap.entries_ofList ?_
  rw [List.map_map]
  have keys : (items.entries.map Prod.fst).map (WorldKey.rename via)
      = items.entries.map (Prod.fst ∘ fun entry => (entry.1.rename via, entry.2.rename via)) := by
    rw [List.map_map]
    rfl
  rw [← keys]
  exact items.distinct.map_on apart

/-- Renaming a world merges no imports and no exports. -/
theorem World.entries_side_rename {via : Renaming} {world : World} (separates : via.Separates world.links)
    (side : Side) :
    ((world.rename via).side side).entries
      = (world.side side).entries.map (WorldItem.renameEntry via) := by
  have inLinks {items : OrderedMap WorldKey WorldItem} (inside : items.entries ⊆ world.entries) :
      items.entries.flatMap WorldItem.entryLinks ⊆ world.links := by
    intro link member
    obtain ⟨entry, isEntry, inEntry⟩ := List.mem_flatMap.mp member
    exact List.mem_append_left _ (List.mem_flatMap.mpr ⟨entry, inside isEntry, inEntry⟩)
  have apart {items : OrderedMap WorldKey WorldItem} (inside : items.entries ⊆ world.entries) :
      via.Separates (items.entries.flatMap WorldItem.entryLinks) :=
    fun first isFirst second isSecond =>
      separates first (inLinks inside isFirst) second (inLinks inside isSecond)
  cases side with
  | imports => exact WorldItem.entries_renameEntries (apart (List.subset_append_left _ _))
  | exports => exact WorldItem.entries_renameEntries (apart (List.subset_append_right _ _))

/-- A renaming that keeps the links of a world apart loses none of them. -/
theorem World.links_rename {via : Renaming} {world : World} (separates : via.Separates world.links) :
    (world.rename via).links = world.links.map (Item.rename via) := by
  have entries : (world.rename via).entries = world.entries.map (WorldItem.renameEntry via) := by
    rw [World.entries, World.entries, List.map_append]
    exact congrArg₂ _ (entries_side_rename separates .imports) (entries_side_rename separates .exports)
  rw [links, links, entries, List.map_append, List.flatMap_map, List.map_flatMap]
  simp only [WorldItem.entryLinks_rename]
  rw [rename, map_item_rename?]

namespace Entity

/-- Renamings that agree on the links of an entity rename it alike. -/
theorem rename_congr {arena : Arena} {entity : Entity arena}
    (agree : Renaming.Agree via other entity.links) : entity.rename via = entity.rename other := by
  cases arena with
  | package => exact Package.rename_congr agree
  | world => exact World.rename_congr agree
  | interface => exact Interface.rename_congr agree
  | type => exact TypeDef.rename_congr agree

/-- Ids that stay as they are leave the entity as it is. -/
theorem rename_self {arena : Arena} (entity : Entity arena) : entity.rename (fun id => id) = entity := by
  cases arena with
  | package =>
    obtain ⟨name, docs, interfaces, worlds⟩ : Package := entity
    show Package.mk name docs (interfaces.mapValues fun id => id) (worlds.mapValues fun id => id) = _
    rw [OrderedMap.mapValues_self, OrderedMap.mapValues_self]
  | world =>
    obtain ⟨name, imports, exports, package, docs, stability⟩ : World := entity
    show World.mk name (WorldItem.renameEntries (fun id => id) imports)
      (WorldItem.renameEntries (fun id => id) exports) (package.map fun id => id) docs stability = _
    rw [WorldItem.renameEntries_self, WorldItem.renameEntries_self, Option.map_id']
  | interface =>
    obtain ⟨name, types, functions, docs, stability, package⟩ : Interface := entity
    show Interface.mk name (types.mapValues fun id => id)
      (functions.mapValues (Function.rename fun id => id)) docs stability (package.map fun id => id) = _
    have functionsSame : Function.rename (fun id => id) = fun function => function :=
      funext Function.rename_self
    rw [functionsSame, OrderedMap.mapValues_self, OrderedMap.mapValues_self, Option.map_id']
  | type =>
    obtain ⟨name, kind, owner, docs, stability⟩ : TypeDef := entity
    show TypeDef.mk name (kind.rename fun id => id) (owner.rename fun id => id) docs stability = _
    rw [Kind.rename_self]
    cases owner <;> rfl

/-- The links of a renamed entity are renamed links. -/
theorem exists_of_mem_links_rename {arena : Arena} {entity : Entity arena} {link : Item}
    (member : link ∈ (entity.rename via).links) :
    ∃ original ∈ entity.links, original.rename via = link := by
  cases arena with
  | package => exact List.mem_map.mp (Package.links_rename entity ▸ member)
  | world => exact World.exists_of_mem_links_rename member
  | interface => exact List.mem_map.mp (Interface.links_rename entity ▸ member)
  | type => exact List.mem_map.mp (TypeDef.links_rename entity ▸ member)

/-- A renaming that keeps the links of an entity apart loses none of them. -/
theorem links_rename {via : Renaming} {arena : Arena} {entity : Entity arena}
    (separates : via.Separates entity.links) :
    (entity.rename via).links = entity.links.map (Item.rename via) := by
  cases arena with
  | package => exact Package.links_rename entity
  | world => exact World.links_rename separates
  | interface => exact Interface.links_rename entity
  | type => exact TypeDef.links_rename entity

end Entity

end WitGraph
