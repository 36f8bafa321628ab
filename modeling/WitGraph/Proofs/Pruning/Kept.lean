/-
**What pruning keeps.**

`Graph.Kept` is the least set of items that is closed under the rules of pruning: it begins with the
packages, worlds and interfaces that are related to the target, and goes on to types, to the owners
of types and to packages. `isKept_iff` says that the search of a pruning finds this set.

The rules speak of all types that a kept interface, or something left in a kept world, reaches. The
search goes from types to types and begins with those in the signatures of functions, so a method
must mention its resource there (`MentionsResources`).
-/

import WitGraph.Proofs.Dependency
import WitGraph.Proofs.Grounded
import WitGraph.Pruning

namespace WitGraph.Graph

/-! ### The rules -/

/-- Every method and constructor reaches its resource from its own parameters and results. -/
def MentionsResources (graph : Graph) : Prop :=
  ∀ place function resource, graph.function? place = some function →
    function.kind = .method resource ∨ function.kind = .constructor resource →
      ∃ id, .defined id ∈ function.types ∧ graph.Reaches (.item id.item) (.item resource.item)

/-- An import or export is left in a world if it is a type or the target depends on it. -/
def leaves (graph : Graph) (target : Node) (id : WorldId) (side : Side)
    (entry : WorldKey × WorldItem) : Bool :=
  match entry.2 with
  | .type _ => true
  | item => graph.dependsOn target (item.node id side entry.1)

/-- The items that are kept in a pruning to a target. -/
inductive Kept (graph : Graph) (target : Node) : Item → Prop
  /-- A package that is related to the target. -/
  | package {id : PackageId} (inside : graph.Holds id.item)
      (related : graph.dependsOn (.item id.item) target = true
        ∨ graph.dependsOn target (.item id.item) = true) : Kept graph target id.item
  /-- The package of a kept world. -/
  | worldPackage {id : WorldId} {world : World} {package : PackageId}
      (kept : Kept graph target id.item) (found : graph.world? id = some world)
      (member : world.package = some package) : Kept graph target package.item
  /-- The package of a kept interface. -/
  | interfacePackage {id : InterfaceId} {interface : Interface} {package : PackageId}
      (kept : Kept graph target id.item) (found : graph.interface? id = some interface)
      (member : interface.package = some package) : Kept graph target package.item
  /-- A world that depends on the target. -/
  | world {id : WorldId} (inside : graph.Holds id.item)
      (depends : graph.dependsOn (.item id.item) target = true) : Kept graph target id.item
  /-- An interface that the target depends on. -/
  | interface {id : InterfaceId} (inside : graph.Holds id.item)
      (needed : graph.dependsOn target (.item id.item) = true) : Kept graph target id.item
  /-- The world or interface that owns a kept type. -/
  | owner {id : TypeId} {type : TypeDef} {owner : Item} (kept : Kept graph target id.item)
      (found : graph.type? id = some type) (owned : type.owner.item? = some owner) :
      Kept graph target owner
  /-- A type that a kept interface reaches. -/
  | interfaceType {id : InterfaceId} {type : TypeId} (kept : Kept graph target id.item)
      (reached : graph.Reaches (.item id.item) (.item type.item)) : Kept graph target type.item
  /-- A type that something left in a kept world reaches. -/
  | worldType {id : WorldId} {world : World} {side : Side} {entry : WorldKey × WorldItem}
      {type : TypeId} (kept : Kept graph target id.item) (found : graph.world? id = some world)
      (listed : entry ∈ (world.side side).entries)
      (left : graph.leaves target id side entry = true)
      (reached : graph.Reaches (entry.2.node id side entry.1) (.item type.item)) :
      Kept graph target type.item

variable {graph : Graph} {target : Node}

/-- It is enough that a parameter or result refers to the resource directly, as handles do. -/
theorem mentionsResources_of_direct
    (each : ∀ place ∈ graph.functionPlaces, ∀ function ∈ graph.function? place,
      ∀ resource ∈ function.kind.resource?, ∃ id ∈ function.types.filterMap TypeRef.id?,
        ∃ kind ∈ graph.kind? id, .defined resource ∈ kind.mentions) :
    graph.MentionsResources := by
  intro place function resource found isResource
  have own : resource ∈ function.kind.resource? := by
    rcases isResource with isMethod | isConstructor
    · rw [isMethod]
      rfl
    · rw [isConstructor]
      rfl
  obtain ⟨id, inTypes, kind, isKind, mentioned⟩ :=
    each place (mem_functionPlaces_iff.mpr ⟨function, found⟩) function found resource own
  exact ⟨id, TypeRef.mem_filterMap_id?.mp inTypes, .single (.typeReference isKind mentioned)⟩

/-! ### What types and functions reach -/

/-- What a type contains is a type. -/
theorem exists_of_contains_type {id : TypeId} {node : Node}
    (contained : graph.Contains (.item id.item) node) :
    ∃ type : TypeId, node = .item type.item ∧ type ∈ graph.directIds id := by
  generalize same : Node.item id.item = outer at contained
  cases contained with
  | @typeReference other type kind found mentioned =>
    have sameId : id = other := Id.item_injective (Node.item.inj same)
    subst sameId
    exact ⟨type, rfl, mem_directIds_of_mentions found mentioned⟩
  | _ => cases same

/-- From a type, containment goes to what it refers to. -/
theorem reaches_type_iff {id : TypeId} {node : Node} :
    graph.Reaches (.item id.item) node
      ↔ ∃ type : TypeId, node = .item type.item ∧ Search.Reaches graph.directIds id type := by
  constructor
  · intro path
    induction path with
    | refl => exact ⟨id, rfl, .refl⟩
    | tail _ step ih =>
      obtain ⟨between, rfl, path⟩ := ih
      obtain ⟨type, rfl, direct⟩ := exists_of_contains_type step
      exact ⟨type, rfl, path.tail direct⟩
  · rintro ⟨type, rfl, path⟩
    induction path with
    | refl => exact .refl
    | tail _ direct ih =>
      obtain ⟨kind, found, direct⟩ := exists_of_mem_directIds direct
      exact ih.tail (.typeReference found (Kind.mem_directIds_iff.mp direct))

/-- The definitions in the signature of a function are its static resource and those among its
types. -/
theorem mem_signatureIds_of_mem_types {function : Function} {id : TypeId}
    (mentioned : .defined id ∈ function.types) : id ∈ function.signatureIds :=
  List.mem_append_right _ (TypeRef.mem_filterMap_id?.mpr mentioned)

/-- Whatever a function refers to is reached from its signature. -/
theorem MentionsResources.exists_signatureId (mentions : graph.MentionsResources)
    {place : FunctionPlace} {function : Function} (found : graph.function? place = some function)
    {id : TypeId} (member : id ∈ function.mentionedIds) :
    ∃ start ∈ function.signatureIds, graph.Reaches (.item start.item) (.item id.item) := by
  rcases Function.mem_mentionedIds_iff.mp member with own | mentioned
  · have throughTypes
        (isResource : function.kind = .method id ∨ function.kind = .constructor id) :
        ∃ start ∈ function.signatureIds, graph.Reaches (.item start.item) (.item id.item) := by
      obtain ⟨start, mentioned, reached⟩ := mentions place function id found isResource
      exact ⟨start, mem_signatureIds_of_mem_types mentioned, reached⟩
    cases kind : function.kind with
    | freestanding =>
      rw [kind] at own
      cases own
    | method resource =>
      rw [kind] at own
      cases own
      exact throughTypes (Or.inl kind)
    | constructor resource =>
      rw [kind] at own
      cases own
      exact throughTypes (Or.inr kind)
    | static resource =>
      refine ⟨id, List.mem_append_left _ (Option.mem_toList.mpr ?_), .refl⟩
      rw [kind] at own
      rw [Function.staticResource?, kind]
      exact own
  · exact ⟨id, mem_signatureIds_of_mem_types mentioned, .refl⟩

/-! ### What a search keeps with an item -/

/-- The items that are kept with an item. -/
abbrev keeps (graph : Graph) (target : Node) : Item → List Item := (Pruning.start graph target).keeps

/-- What is left in a pruned world is what the target depends on, and all types. -/
theorem entries_side_pruneWorld (id : WorldId) (world : World) (side : Side) :
    (((Pruning.start graph target).pruneWorld id world).side side).entries
      = (world.side side).entries.filter (graph.leaves target id side) := by
  have same (entry : WorldKey × WorldItem) :
      (Pruning.start graph target).keepsEntry id side entry.1 entry.2
        = graph.leaves target id side entry := by
    obtain ⟨key, item⟩ := entry
    cases item <;> rfl
  cases side <;> exact List.filter_congr fun entry _ => same entry

theorem keeps_world {pruning : Pruning} {id : WorldId} {world : World}
    (found : pruning.graph.world? id = some world) :
    pruning.keeps id.item = (pruning.pruneWorld id world).items.flatMap Pruning.itemKeeps
      ++ (world.package.map Id.item).toList := by
  obtain ⟨index⟩ := id
  simp only [Id.item, Pruning.keeps, found]

theorem mem_keeps_world_iff {id : WorldId} {world : World} (found : graph.world? id = some world)
    {item : Item} :
    item ∈ graph.keeps target id.item
      ↔ (∃ side entry, entry ∈ (world.side side).entries ∧ graph.leaves target id side entry = true
          ∧ item ∈ Pruning.itemKeeps entry.2)
        ∨ ∃ package, world.package = some package ∧ item = package.item := by
  have same : graph.keeps target id.item = _ := keeps_world found
  rw [same, List.mem_append, List.mem_flatMap, Option.mem_toList, Option.map_eq_some_iff]
  refine or_congr ⟨?_, ?_⟩ (exists_congr fun package => and_congr_right fun _ => eq_comm)
  · rintro ⟨_, isItem, kept⟩
    obtain ⟨entry, isEntry, rfl⟩ := List.mem_map.mp isItem
    obtain ⟨side, inSide⟩ := mem_entries_iff.mp isEntry
    rw [entries_side_pruneWorld, List.mem_filter] at inSide
    exact ⟨side, entry, inSide.1, inSide.2, kept⟩
  · rintro ⟨side, entry, listed, left, kept⟩
    refine ⟨entry.2, List.mem_map_of_mem (mem_entries_iff.mpr ⟨side, ?_⟩), kept⟩
    rw [entries_side_pruneWorld]
    exact List.mem_filter.mpr ⟨listed, left⟩

theorem mem_keeps_interface_iff {id : InterfaceId} {interface : Interface}
    (found : graph.interface? id = some interface) {item : Item} :
    item ∈ graph.keeps target id.item
      ↔ (∃ type ∈ interface.types.values, item = type.item)
        ∨ (∃ function ∈ interface.functions.values, ∃ type ∈ function.signatureIds,
            item = type.item)
        ∨ ∃ package, interface.package = some package ∧ item = package.item := by
  have same : graph.keeps target id.item
      = (interface.types.values ++ interface.functions.values.flatMap Function.signatureIds).map
          Id.item ++ interface.package.toList.map Id.item := by
    show (graph.interfaceTypeIds id).map Id.item
      ++ ((graph.interface? id).bind Interface.package).toList.map Id.item = _
    rw [interfaceTypeIds, found]
    rfl
  rw [same, List.mem_append, List.mem_map, List.mem_map]
  simp only [List.mem_append, List.mem_flatMap, Option.mem_toList]
  constructor
  · rintro (⟨type, inTypes | ⟨function, isFunction, inSignature⟩, rfl⟩ | ⟨package, member, rfl⟩)
    · exact Or.inl ⟨type, inTypes, rfl⟩
    · exact Or.inr (Or.inl ⟨function, isFunction, type, inSignature, rfl⟩)
    · exact Or.inr (Or.inr ⟨package, member, rfl⟩)
  · rintro (⟨type, inTypes, rfl⟩ | ⟨function, isFunction, type, inSignature, rfl⟩
      | ⟨package, member, rfl⟩)
    · exact Or.inl ⟨type, Or.inl inTypes, rfl⟩
    · exact Or.inl ⟨type, Or.inr ⟨function, isFunction, inSignature⟩, rfl⟩
    · exact Or.inr ⟨package, member, rfl⟩

theorem mem_keeps_type_iff {id : TypeId} {type : TypeDef} (found : graph.type? id = some type)
    {item : Item} :
    item ∈ graph.keeps target id.item
      ↔ (∃ other ∈ type.kind.directIds, item = other.item) ∨ type.owner.item? = some item := by
  have directIds : graph.directIds id = type.kind.directIds := by
    simp [Graph.directIds, kind?, found]
  show item ∈ (graph.directIds id).map Id.item
    ++ (((graph.type? id).map TypeDef.owner).bind Owner.item?).toList ↔ _
  rw [directIds, found, List.mem_append, List.mem_map, Option.mem_toList]
  simp only [Option.map_some, Option.bind_some, eq_comm]

theorem holds_of_keeps {item : Item} (nonempty : graph.keeps target item ≠ []) :
    graph.Holds item := by
  rw [holds_iff_entity?]
  cases found : graph.entity? item.id with
  | some entity => exact ⟨entity, rfl⟩
  | none =>
    refine absurd ?_ nonempty
    obtain ⟨arena, index⟩ := item
    cases arena with
    | package => rfl
    | world =>
      have absent : (Pruning.start graph target).graph.world? ⟨index⟩ = none := found
      simp only [Pruning.keeps, absent]
    | interface =>
      show (graph.interfaceTypeIds ⟨index⟩).map Id.item
        ++ ((graph.interface? ⟨index⟩).bind Interface.package).toList.map Id.item = _
      rw [interfaceTypeIds, show graph.interface? ⟨index⟩ = none from found]
      rfl
    | type =>
      show (graph.directIds ⟨index⟩).map Id.item
        ++ (((graph.type? ⟨index⟩).map TypeDef.owner).bind Owner.item?).toList = _
      rw [Graph.directIds, kind?, show graph.type? ⟨index⟩ = none from found]
      rfl

theorem mem_items_of_keeps (item : Item) (nonempty : graph.keeps target item ≠ []) :
    item ∈ graph.items :=
  (graph.mem_items_iff item).mpr (holds_of_keeps nonempty)

/-! ### What a kept item leads to -/

/-- A type leads to the types that it reaches. -/
theorem leads_of_reaches_type {id : TypeId} {node : Node}
    (reached : graph.Reaches (.item id.item) node) :
    ∃ type : TypeId, node = .item type.item
      ∧ Search.Reaches (graph.keeps target) id.item type.item := by
  obtain ⟨type, rfl, path⟩ := reaches_type_iff.mp reached
  refine ⟨type, rfl, Relation.ReflTransGen.lift Id.item (fun _ _ direct => ?_) _ _ path⟩
  exact List.mem_append_left _ (List.mem_map_of_mem direct)

/-- What a function reaches is led to from its signature. -/
theorem MentionsResources.leads (mentions : graph.MentionsResources) {place : FunctionPlace}
    {function : Function} (found : graph.function? place = some function) {type : TypeId}
    (reached : graph.Reaches (.function place) (.item type.item)) :
    ∃ start ∈ function.signatureIds, Search.Reaches (graph.keeps target) start.item type.item := by
  rcases Relation.ReflTransGen.cases_head reached with same | ⟨node, step, rest⟩
  · cases same
  · obtain ⟨other, isFunction, first, mentioned, rfl⟩ := contains_function_iff.mp step
    cases found.symm.trans isFunction
    obtain ⟨start, inSignature, before⟩ := mentions.exists_signatureId found mentioned
    obtain ⟨last, same, path⟩ := leads_of_reaches_type (before.trans rest)
    cases Id.item_injective (Node.item.inj same)
    exact ⟨start, inSignature, path⟩

theorem MentionsResources.leads_interface (mentions : graph.MentionsResources) {id : InterfaceId}
    {type : TypeId} (reached : graph.Reaches (.item id.item) (.item type.item)) :
    Search.Reaches (graph.keeps target) id.item type.item := by
  rcases Relation.ReflTransGen.cases_head reached with same | ⟨node, step, rest⟩
  · cases same
  · generalize isInterface : Node.item id.item = outer at step
    cases step with
    | @interfaceType other interface first found listed =>
      cases Id.item_injective (Node.item.inj isInterface)
      obtain ⟨last, same, path⟩ := leads_of_reaches_type rest
      cases Id.item_injective (Node.item.inj same)
      exact .head ((mem_keeps_interface_iff found).mpr (Or.inl ⟨first, listed, rfl⟩)) path
    | @interfaceFunction other interface name found listed =>
      cases Id.item_injective (Node.item.inj isInterface)
      obtain ⟨function, isEntry⟩ := (OrderedMap.mem_keys_iff _).mp listed
      obtain ⟨start, inSignature, path⟩ :=
        mentions.leads (function?_interface_iff.mpr ⟨interface, found, isEntry⟩) rest
      have isFunction := (OrderedMap.mem_values_iff _).mpr ⟨name, isEntry⟩
      exact .head ((mem_keeps_interface_iff found).mpr
        (Or.inr (Or.inl ⟨function, isFunction, start, inSignature, rfl⟩))) path
    | _ => cases isInterface

theorem MentionsResources.leads_entry (mentions : graph.MentionsResources) {id : WorldId}
    {world : World} {side : Side} {entry : WorldKey × WorldItem} {type : TypeId}
    (found : graph.world? id = some world) (listed : entry ∈ (world.side side).entries)
    (left : graph.leaves target id side entry = true)
    (reached : graph.Reaches (entry.2.node id side entry.1) (.item type.item)) :
    Search.Reaches (graph.keeps target) id.item type.item := by
  have first {item : Item} (kept : item ∈ Pruning.itemKeeps entry.2) :
      item ∈ graph.keeps target id.item :=
    (mem_keeps_world_iff found).mpr (Or.inl ⟨side, entry, listed, left, kept⟩)
  obtain ⟨key, item⟩ := entry
  cases item with
  | interface interface stability =>
    exact .head (first (List.mem_singleton_self _)) (mentions.leads_interface reached)
  | function function =>
    obtain ⟨start, inSignature, path⟩ :=
      mentions.leads (function?_world_iff.mpr ⟨world, found, listed⟩) reached
    exact .head (first (List.mem_map_of_mem inSignature)) path
  | type other =>
    obtain ⟨last, same, path⟩ := leads_of_reaches_type reached
    cases Id.item_injective (Node.item.inj same)
    exact .head (first (List.mem_singleton_self _)) path

/-! ### What is kept with a kept item -/

/-- A kept type has been reached, and so are the types that it refers to. -/
theorem Kept.directType {id type : TypeId} {definition : TypeDef} (kept : graph.Kept target id.item)
    (found : graph.type? id = some definition) (direct : type ∈ definition.kind.directIds) :
    graph.Kept target type.item := by
  have step : graph.Contains (.item id.item) (.item type.item) :=
    .typeReference (Option.map_eq_some_iff.mpr ⟨definition, found, rfl⟩)
      (Kind.mem_directIds_iff.mp direct)
  generalize same : id.item = item at kept
  cases kept with
  | interfaceType kept reached =>
    cases Id.item_injective same
    exact .interfaceType kept (reached.tail step)
  | worldType kept isWorld listed left reached =>
    cases Id.item_injective same
    exact .worldType kept isWorld listed left (reached.tail step)
  | owner kept isType owned =>
    -- owners are worlds and interfaces
    exfalso
    rw [← same] at owned
    rename_i other type
    cases owner : type.owner <;> rw [owner] at owned <;> cases owned
  | _ => cases same

theorem mem_mentionedIds_of_mem_signatureIds {function : Function} {id : TypeId}
    (member : id ∈ function.signatureIds) : id ∈ function.mentionedIds := by
  rw [Function.mem_mentionedIds_iff]
  rcases List.mem_append.mp member with static | mentioned
  · refine Or.inl ?_
    rw [Option.mem_toList, Function.staticResource?] at static
    cases kind : function.kind <;> rw [kind] at static <;> cases static
    rfl
  · exact Or.inr (TypeRef.mem_filterMap_id?.mp mentioned)

theorem Kept.entry (closed : graph.IsClosed) {id : WorldId} {world : World} {side : Side}
    {entry : WorldKey × WorldItem} {item : Item} (kept : graph.Kept target id.item)
    (found : graph.world? id = some world) (listed : entry ∈ (world.side side).entries)
    (left : graph.leaves target id side entry = true) (member : item ∈ Pruning.itemKeeps entry.2) :
    graph.Kept target item := by
  obtain ⟨key, own⟩ := entry
  cases own with
  | interface interface stability =>
    rw [List.mem_singleton.mp member]
    refine .interface (closed id.item interface.item ?_) left
    rw [links_of_entity? (show graph.entity? id.item.id = some world from found)]
    exact mem_links_of_mem_entryLinks listed (List.mem_append_right _ (List.mem_singleton_self _))
  | function function =>
    obtain ⟨type, inSignature, rfl⟩ := List.mem_map.mp member
    have place := function?_world_iff.mpr ⟨world, found, listed⟩
    exact .worldType kept found listed left (.single (contains_function_iff.mpr
      ⟨function, place, type, mem_mentionedIds_of_mem_signatureIds inSignature, rfl⟩))
  | type other =>
    rw [List.mem_singleton.mp member]
    exact .worldType kept found listed left .refl

/-- Whatever the search keeps with a kept item is kept. -/
theorem Kept.keeps (closed : graph.IsClosed) {item other : Item} (kept : graph.Kept target item)
    (member : other ∈ graph.keeps target item) : graph.Kept target other := by
  have inside : graph.Holds item := holds_of_keeps (List.ne_nil_of_mem member)
  obtain ⟨entity, found⟩ := (graph.holds_iff_entity? item).mp inside
  obtain ⟨arena, index⟩ := item
  cases arena with
  | package => cases member
  | world =>
    rcases (mem_keeps_world_iff found).mp member with
      ⟨side, entry, listed, left, isKept⟩ | ⟨package, owned, rfl⟩
    · exact kept.entry closed found listed left isKept
    · exact .worldPackage kept found owned
  | interface =>
    rcases (mem_keeps_interface_iff found).mp member with
      ⟨type, listed, rfl⟩ | ⟨function, isFunction, type, inSignature, rfl⟩ | ⟨package, owned, rfl⟩
    · exact .interfaceType kept (.single (.interfaceType found listed))
    · obtain ⟨name, listed⟩ := (OrderedMap.mem_values_iff _).mp isFunction
      have place := function?_interface_iff.mpr ⟨_, found, listed⟩
      refine .interfaceType kept (.head (contains_container place) (.single ?_))
      exact contains_function_iff.mpr
        ⟨function, place, type, mem_mentionedIds_of_mem_signatureIds inSignature, rfl⟩
    · exact .interfacePackage kept found owned
  | type =>
    rcases (mem_keeps_type_iff found).mp member with ⟨type, direct, rfl⟩ | owned
    · exact kept.directType found direct
    · exact .owner kept found owned

/-! ### The search -/

/-- The items that a pruning to the target keeps. -/
def isKept (graph : Graph) (target : Node) : Item → Bool :=
  (Pruning.start graph target).kept.hasEntered

/-- The search keeps what the first items lead to. -/
theorem isKept_iff_leads {item : Item} :
    graph.isKept target item = true
      ↔ ∃ root ∈ graph.items.filter (Pruning.start graph target).isFirst,
        Search.Reaches (graph.keeps target) root item :=
  Search.hasEntered_visitAll_iff mem_items_of_keeps graph.length_items_lt _ _

theorem isKept_of_isFirst {item : Item} (inside : graph.Holds item)
    (first : (Pruning.start graph target).isFirst item = true) : graph.isKept target item = true :=
  isKept_iff_leads.mpr
    ⟨item, List.mem_filter.mpr ⟨(graph.mem_items_iff item).mpr inside, first⟩, .refl⟩

theorem kept_of_isFirst {item : Item} (inside : graph.Holds item)
    (first : (Pruning.start graph target).isFirst item = true) : graph.Kept target item := by
  obtain ⟨arena, index⟩ := item
  cases arena with
  | package => exact @Kept.package graph target ⟨index⟩ inside ((Bool.or_eq_true _ _).mp first)
  | world => exact @Kept.world graph target ⟨index⟩ inside first
  | interface => exact @Kept.interface graph target ⟨index⟩ inside first
  | type => cases first

/-- **The search keeps exactly the least set that is closed under the rules.** -/
theorem isKept_iff (closed : graph.IsClosed) (mentions : graph.MentionsResources) {item : Item} :
    graph.isKept target item = true ↔ graph.Kept target item := by
  rw [isKept_iff_leads]
  constructor
  · rintro ⟨root, isRoot, path⟩
    obtain ⟨listed, first⟩ := List.mem_filter.mp isRoot
    have keptRoot := kept_of_isFirst ((graph.mem_items_iff root).mp listed) first
    induction path with
    | refl => exact keptRoot
    | tail _ member ih => exact ih.keeps closed member
  · intro kept
    have first {item : Item} (inside : graph.Holds item)
        (isFirst : (Pruning.start graph target).isFirst item = true) :
        ∃ root ∈ graph.items.filter (Pruning.start graph target).isFirst,
          Search.Reaches (graph.keeps target) root item :=
      ⟨item, List.mem_filter.mpr ⟨(graph.mem_items_iff item).mpr inside, isFirst⟩, .refl⟩
    have later {before after : Item} (led : ∃ root ∈ graph.items.filter
        (Pruning.start graph target).isFirst, Search.Reaches (graph.keeps target) root before)
        (path : Search.Reaches (graph.keeps target) before after) :
        ∃ root ∈ graph.items.filter (Pruning.start graph target).isFirst,
          Search.Reaches (graph.keeps target) root after := by
      obtain ⟨root, isRoot, start⟩ := led
      exact ⟨root, isRoot, start.trans path⟩
    induction kept with
    | package inside related => exact first inside ((Bool.or_eq_true _ _).mpr related)
    | world inside depends => exact first inside depends
    | interface inside needed => exact first inside needed
    | worldPackage _ found owned ih =>
      exact later ih (.single ((mem_keeps_world_iff found).mpr (Or.inr ⟨_, owned, rfl⟩)))
    | interfacePackage _ found owned ih =>
      exact later ih (.single ((mem_keeps_interface_iff found).mpr
        (Or.inr (Or.inr ⟨_, owned, rfl⟩))))
    | owner _ found owned ih =>
      exact later ih (.single ((mem_keeps_type_iff found).mpr (Or.inr owned)))
    | interfaceType _ reached ih => exact later ih (mentions.leads_interface reached)
    | worldType _ found listed left reached ih =>
      exact later ih (mentions.leads_entry found listed left reached)

end WitGraph.Graph
