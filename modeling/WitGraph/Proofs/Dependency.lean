/-
**Dependency is reachability.**

`Graph.Contains` is one step from a node to what it contains, functions being nodes of their own, and
`Graph.LinkedBack` leads from a node to its package, its owner and the package of its owner.

* `mem_contents_iff`: the search goes from item to item, passing over the functions between them;
* `includes_iff`: so it finds the items that the node reaches;
* `dependsOn_iff`: a node depends on exactly the nodes that it reaches or that something it reaches
  is linked back to. Circles need no exception: the search enters every item at most once.
-/

import WitGraph.Proofs.Items
import WitGraph.Proofs.OrderedMap
import WitGraph.Proofs.References
import WitGraph.Proofs.Search

namespace WitGraph

/-! ### Containment and links back -/

/-- The node that an import or export stands for. -/
def WorldItem.node (id : WorldId) (side : Side) (key : WorldKey) : WorldItem → Node
  | .interface target _ => .item target.item
  | .function _ => .function (.world id side key)
  | .type target => .item target.item

namespace Graph

/-- The first node contains the second one directly. -/
inductive Contains (graph : Graph) : Node → Node → Prop
  | packageInterface {id : PackageId} {package : Package} {interface : InterfaceId}
      (found : graph.package? id = some package)
      (listed : interface ∈ package.interfaces.values) :
      Contains graph (.item id.item) (.item interface.item)
  | packageWorld {id : PackageId} {package : Package} {world : WorldId}
      (found : graph.package? id = some package) (listed : world ∈ package.worlds.values) :
      Contains graph (.item id.item) (.item world.item)
  | worldEntry {id : WorldId} {world : World} {side : Side} {key : WorldKey} {entry : WorldItem}
      (found : graph.world? id = some world)
      (listed : (key, entry) ∈ (world.side side).entries) :
      Contains graph (.item id.item) (entry.node id side key)
  | interfaceType {id : InterfaceId} {interface : Interface} {type : TypeId}
      (found : graph.interface? id = some interface) (listed : type ∈ interface.types.values) :
      Contains graph (.item id.item) (.item type.item)
  | interfaceFunction {id : InterfaceId} {interface : Interface} {name : String}
      (found : graph.interface? id = some interface)
      (listed : name ∈ interface.functions.keys) :
      Contains graph (.item id.item) (.function (.interface id name))
  | typeReference {id type : TypeId} {kind : TypeKind} (found : graph.kind? id = some kind)
      (mentioned : .defined type ∈ kind.mentions) :
      Contains graph (.item id.item) (.item type.item)
  | functionResource {place : FunctionPlace} {function : Function} {type : TypeId}
      (found : graph.function? place = some function)
      (own : function.kind.resource? = some type) :
      Contains graph (.function place) (.item type.item)
  | functionType {place : FunctionPlace} {function : Function} {type : TypeId}
      (found : graph.function? place = some function)
      (mentioned : .defined type ∈ function.types) :
      Contains graph (.function place) (.item type.item)

/-- The second node is the package or the owner of the first one, or the package of its owner. -/
inductive LinkedBack (graph : Graph) : Node → Node → Prop
  | worldPackage {id : WorldId} {world : World} {package : PackageId}
      (found : graph.world? id = some world) (member : world.package = some package) :
      LinkedBack graph (.item id.item) (.item package.item)
  | interfacePackage {id : InterfaceId} {interface : Interface} {package : PackageId}
      (found : graph.interface? id = some interface) (member : interface.package = some package) :
      LinkedBack graph (.item id.item) (.item package.item)
  | owner {id : TypeId} {type : TypeDef} {owner : Item} (found : graph.type? id = some type)
      (owned : type.owner.item? = some owner) : LinkedBack graph (.item id.item) (.item owner)
  | ownerWorldPackage {id : TypeId} {type : TypeDef} {owner : WorldId} {world : World}
      {package : PackageId} (found : graph.type? id = some type) (owned : type.owner = .world owner)
      (standing : graph.world? owner = some world) (member : world.package = some package) :
      LinkedBack graph (.item id.item) (.item package.item)
  | ownerInterfacePackage {id : TypeId} {type : TypeDef} {owner : InterfaceId}
      {interface : Interface} {package : PackageId} (found : graph.type? id = some type)
      (owned : type.owner = .interface owner) (standing : graph.interface? owner = some interface)
      (member : interface.package = some package) :
      LinkedBack graph (.item id.item) (.item package.item)

/-- The node reaches another one by going from a node to what it contains. -/
abbrev Reaches (graph : Graph) : Node → Node → Prop :=
  Relation.ReflTransGen graph.Contains

end Graph

namespace Graph

variable {graph : Graph}

/-! ### The steps of the search -/

/-- The sides of a world together hold its entries. -/
theorem mem_entries_iff {world : World} {entry : WorldKey × WorldItem} :
    entry ∈ world.entries ↔ ∃ side, entry ∈ (world.side side).entries := by
  rw [World.entries, List.mem_append]
  constructor
  · rintro (imported | exported)
    · exact ⟨.imports, imported⟩
    · exact ⟨.exports, exported⟩
  · rintro ⟨_ | _, member⟩
    · exact Or.inl member
    · exact Or.inr member

theorem mem_links_of_mem_entryLinks {world : World} {side : Side} {entry : WorldKey × WorldItem}
    (listed : entry ∈ (world.side side).entries) {link : Item}
    (member : link ∈ WorldItem.entryLinks entry) : link ∈ world.links :=
  List.mem_append_left _ (List.mem_flatMap.mpr
    ⟨entry, mem_entries_iff.mpr ⟨side, listed⟩, member⟩)

theorem function?_world_iff {id : WorldId} {side : Side} {key : WorldKey} {function : Function} :
    graph.function? (.world id side key) = some function
      ↔ ∃ world, graph.world? id = some world
        ∧ (key, .function function) ∈ (world.side side).entries := by
  simp only [function?, Option.bind_eq_bind, Option.bind_eq_some_iff,
    OrderedMap.find?_eq_some_iff]
  constructor
  · rintro ⟨world, found, entry, listed, same⟩
    cases entry <;> cases same
    exact ⟨world, found, listed⟩
  · rintro ⟨world, found, listed⟩
    exact ⟨world, found, _, listed, rfl⟩

theorem function?_interface_iff {id : InterfaceId} {name : String} {function : Function} :
    graph.function? (.interface id name) = some function
      ↔ ∃ interface, graph.interface? id = some interface
        ∧ (name, function) ∈ interface.functions.entries := by
  simp only [function?, Option.bind_eq_bind, Option.bind_eq_some_iff,
    OrderedMap.find?_eq_some_iff]

/-- What a function mentions is among the links of what it stands in. -/
theorem mem_links_of_function? {place : FunctionPlace} {function : Function}
    (found : graph.function? place = some function) {id : TypeId}
    (member : id ∈ function.mentionedIds) : id.item ∈ graph.links place.container := by
  have isLink : id.item ∈ function.mentionedIds.map Id.item := List.mem_map_of_mem member
  cases place with
  | interface container name =>
    obtain ⟨interface, held, listed⟩ := function?_interface_iff.mp found
    have isValue : function ∈ interface.functions.values :=
      (OrderedMap.mem_values_iff _).mpr ⟨name, listed⟩
    have isEntity : graph.entity? container.item.id = some interface := held
    show id.item ∈ graph.links container.item
    rw [links_of_entity? isEntity]
    exact List.mem_append_left _ (List.mem_append_right _
      (List.mem_flatMap.mpr ⟨function, isValue, isLink⟩))
  | world container side key =>
    obtain ⟨world, held, listed⟩ := function?_world_iff.mp found
    have isEntity : graph.entity? container.item.id = some world := held
    show id.item ∈ graph.links container.item
    rw [links_of_entity? isEntity]
    exact mem_links_of_mem_entryLinks listed (List.mem_append_right _ isLink)

/-- A function contains the definitions that it mentions. -/
theorem contains_function_iff {place : FunctionPlace} {node : Node} :
    graph.Contains (.function place) node
      ↔ ∃ function, graph.function? place = some function
        ∧ ∃ type ∈ function.mentionedIds, node = .item type.item := by
  constructor
  · rintro (_ | _)
    case functionResource function type own found =>
      exact ⟨function, found, type, Function.mem_mentionedIds_iff.mpr (Or.inl own), rfl⟩
    case functionType function type mentioned found =>
      exact ⟨function, found, type, Function.mem_mentionedIds_iff.mpr (Or.inr mentioned), rfl⟩
  · rintro ⟨function, found, type, member, rfl⟩
    rcases Function.mem_mentionedIds_iff.mp member with own | mentioned
    · exact .functionResource found own
    · exact .functionType found mentioned

theorem contains_container {place : FunctionPlace} {function : Function}
    (found : graph.function? place = some function) :
    graph.Contains (.item place.container) (.function place) := by
  cases place with
  | interface id name =>
    obtain ⟨interface, held, listed⟩ := function?_interface_iff.mp found
    exact .interfaceFunction held ((OrderedMap.mem_keys_iff _).mpr ⟨function, listed⟩)
  | world id side key =>
    obtain ⟨world, held, listed⟩ := function?_world_iff.mp found
    exact .worldEntry held listed

/-- What contains a function directly is its container, and there is a function at the place. -/
theorem container_of_contains {node : Node} {place : FunctionPlace}
    (contained : graph.Contains node (.function place)) :
    node = .item place.container ∧ ∃ function, graph.function? place = some function := by
  generalize same : Node.function place = inner at contained
  cases contained with
  | worldEntry found listed =>
    rename_i id world side key entry
    cases entry <;> cases same
    exact ⟨rfl, _, function?_world_iff.mpr ⟨world, found, listed⟩⟩
  | interfaceFunction found listed =>
    cases same
    obtain ⟨function, member⟩ := (OrderedMap.mem_keys_iff _).mp listed
    exact ⟨rfl, function, function?_interface_iff.mpr ⟨_, found, member⟩⟩
  | _ => cases same

theorem contents_package {id : PackageId} {package : Package}
    (found : graph.package? id = some package) :
    graph.contents id.item
      = package.interfaces.values.map Id.item ++ package.worlds.values.map Id.item := by
  obtain ⟨index⟩ := id
  simp only [Id.item, contents, found]

theorem contents_world {id : WorldId} {world : World} (found : graph.world? id = some world) :
    graph.contents id.item = world.items.flatMap itemContents := by
  obtain ⟨index⟩ := id
  simp only [Id.item, contents, found]

theorem contents_interface {id : InterfaceId} {interface : Interface}
    (found : graph.interface? id = some interface) :
    graph.contents id.item = interface.types.values.map Id.item
      ++ interface.functions.values.flatMap fun function => function.mentionedIds.map Id.item := by
  obtain ⟨index⟩ := id
  simp only [Id.item, contents, found]

theorem contents_type {id : TypeId} {kind : TypeKind} (found : graph.kind? id = some kind) :
    graph.contents id.item = kind.directIds.map Id.item := by
  obtain ⟨index⟩ := id
  simp only [Id.item, contents, found]

theorem mem_contents_of_contains {item inner : Item}
    (contained : graph.Contains (.item item) (.item inner)) : inner ∈ graph.contents item := by
  generalize same : Node.item inner = node at contained
  cases contained with
  | packageInterface found listed =>
    cases same
    rw [contents_package found]
    exact List.mem_append_left _ (List.mem_map_of_mem listed)
  | packageWorld found listed =>
    cases same
    rw [contents_package found]
    exact List.mem_append_right _ (List.mem_map_of_mem listed)
  | @worldEntry id world side key entry found listed =>
    rw [contents_world found]
    refine List.mem_flatMap.mpr
      ⟨entry, List.mem_map.mpr ⟨_, mem_entries_iff.mpr ⟨side, listed⟩, rfl⟩, ?_⟩
    cases entry <;> cases same <;> exact List.mem_singleton_self _
  | interfaceType found listed =>
    cases same
    rw [contents_interface found]
    exact List.mem_append_left _ (List.mem_map_of_mem listed)
  | interfaceFunction => cases same
  | typeReference found mentioned =>
    cases same
    rw [contents_type found]
    exact List.mem_map_of_mem (Kind.mem_directIds_iff.mpr mentioned)

/-- What a function mentions is among the contents of its container. -/
theorem mem_contents_container {place : FunctionPlace} {function : Function} {type : TypeId}
    (found : graph.function? place = some function) (mentioned : type ∈ function.mentionedIds) :
    type.item ∈ graph.contents place.container := by
  cases place with
  | interface id name =>
    obtain ⟨interface, held, listed⟩ := function?_interface_iff.mp found
    show _ ∈ graph.contents id.item
    rw [contents_interface held]
    exact List.mem_append_right _ (List.mem_flatMap.mpr
      ⟨function, (OrderedMap.mem_values_iff _).mpr ⟨name, listed⟩, List.mem_map_of_mem mentioned⟩)
  | world id side key =>
    obtain ⟨world, held, listed⟩ := function?_world_iff.mp found
    show _ ∈ graph.contents id.item
    rw [contents_world held]
    exact List.mem_flatMap.mpr ⟨.function function,
      List.mem_map.mpr ⟨_, mem_entries_iff.mpr ⟨side, listed⟩, rfl⟩, List.mem_map_of_mem mentioned⟩

/-- A step of the search is one step to an item, or two with a function between them. -/
theorem contains_of_mem_contents {item inner : Item} (member : inner ∈ graph.contents item) :
    graph.Contains (.item item) (.item inner)
      ∨ ∃ place, graph.Contains (.item item) (.function place)
        ∧ graph.Contains (.function place) (.item inner) := by
  obtain ⟨arena, index⟩ := item
  cases arena with
  | package =>
    cases found : graph.package? ⟨index⟩ with
    | none => simp [contents, found] at member
    | some package =>
      change inner ∈ graph.contents (Id.item (⟨index⟩ : PackageId)) at member
      rw [contents_package found, List.mem_append, List.mem_map, List.mem_map] at member
      rcases member with ⟨interface, listed, rfl⟩ | ⟨world, listed, rfl⟩
      · exact Or.inl (.packageInterface found listed)
      · exact Or.inl (.packageWorld found listed)
  | world =>
    cases found : graph.world? ⟨index⟩ with
    | none => simp [contents, found] at member
    | some world =>
      change inner ∈ graph.contents (Id.item (⟨index⟩ : WorldId)) at member
      rw [contents_world found] at member
      obtain ⟨entry, listed, inside⟩ := List.mem_flatMap.mp member
      obtain ⟨⟨key, entry⟩, inWorld, rfl⟩ := List.mem_map.mp listed
      obtain ⟨side, listed⟩ := mem_entries_iff.mp inWorld
      have step := Contains.worldEntry found listed
      cases entry with
      | interface target stability => exact Or.inl (List.mem_singleton.mp inside ▸ step)
      | type target => exact Or.inl (List.mem_singleton.mp inside ▸ step)
      | function function =>
        obtain ⟨type, mentioned, rfl⟩ := List.mem_map.mp inside
        refine Or.inr ⟨_, step, contains_function_iff.mpr ⟨function, ?_, type, mentioned, rfl⟩⟩
        exact function?_world_iff.mpr ⟨world, found, listed⟩
  | interface =>
    cases found : graph.interface? ⟨index⟩ with
    | none => simp [contents, found] at member
    | some interface =>
      change inner ∈ graph.contents (Id.item (⟨index⟩ : InterfaceId)) at member
      rw [contents_interface found, List.mem_append, List.mem_map, List.mem_flatMap] at member
      rcases member with ⟨type, listed, rfl⟩ | ⟨function, listed, inside⟩
      · exact Or.inl (.interfaceType found listed)
      · obtain ⟨name, listed⟩ := (OrderedMap.mem_values_iff _).mp listed
        obtain ⟨type, mentioned, rfl⟩ := List.mem_map.mp inside
        have held := function?_interface_iff.mpr ⟨interface, found, listed⟩
        exact Or.inr ⟨_, contains_container held,
          contains_function_iff.mpr ⟨function, held, type, mentioned, rfl⟩⟩
  | type =>
    cases found : graph.kind? ⟨index⟩ with
    | none => simp [contents, found] at member
    | some kind =>
      change inner ∈ graph.contents (Id.item (⟨index⟩ : TypeId)) at member
      rw [contents_type found] at member
      obtain ⟨type, listed, rfl⟩ := List.mem_map.mp member
      exact Or.inl (.typeReference found (Kind.mem_directIds_iff.mp listed))

/-- **The search goes from item to item**, passing over the functions between them. -/
theorem mem_contents_iff {item inner : Item} :
    inner ∈ graph.contents item ↔ graph.Contains (.item item) (.item inner)
      ∨ ∃ place, graph.Contains (.item item) (.function place)
        ∧ graph.Contains (.function place) (.item inner) := by
  refine ⟨contains_of_mem_contents, ?_⟩
  rintro (contained | ⟨place, outer, contained⟩)
  · exact mem_contents_of_contains contained
  · obtain ⟨same, -⟩ := container_of_contains outer
    obtain ⟨function, found, type, mentioned, inside⟩ := contains_function_iff.mp contained
    cases same
    cases inside
    exact mem_contents_container found mentioned

/-! ### What a node reaches -/

theorem reaches_of_contents {item inner : Item} (path : Search.Reaches graph.contents item inner) :
    graph.Reaches (.item item) (.item inner) := by
  induction path with
  | refl => exact .refl
  | tail _ member ih =>
    rcases mem_contents_iff.mp member with step | ⟨place, outer, inside⟩
    · exact ih.tail step
    · exact (ih.tail outer).tail inside

/-- The items at which the search from a node starts are the node itself or what the function at its
place mentions. -/
theorem reaches_of_mem_roots {node : Node} {root : Item} (member : root ∈ graph.roots node) :
    graph.Reaches node (.item root) := by
  cases node with
  | item item =>
    rw [List.mem_singleton.mp member]
  | function place =>
    cases found : graph.function? place with
    | none => simp [roots, found] at member
    | some function =>
      simp only [roots, found, List.mem_map] at member
      obtain ⟨type, mentioned, rfl⟩ := member
      exact .single (contains_function_iff.mpr ⟨function, found, type, mentioned, rfl⟩)

theorem holds_of_contains {item : Item} {node : Node} (contained : graph.Contains (.item item) node) :
    graph.Holds item := by
  rw [holds_iff_entity?]
  cases contained with
  | packageInterface found | packageWorld found | worldEntry found | interfaceType found
  | interfaceFunction found => exact ⟨_, found⟩
  | typeReference found =>
    obtain ⟨type, held, -⟩ := Option.map_eq_some_iff.mp found
    exact ⟨type, held⟩

theorem mem_items_of_contents (item : Item) (nonempty : graph.contents item ≠ []) :
    item ∈ graph.items := by
  obtain ⟨inner, member⟩ := List.exists_mem_of_ne_nil _ nonempty
  rw [mem_items_iff]
  rcases contains_of_mem_contents member with step | ⟨place, outer, -⟩
  · exact holds_of_contains step
  · exact holds_of_contains outer

/-- The search finds what the roots lead to. -/
theorem mem_reach_items_iff {node : Node} {item : Item} :
    item ∈ (graph.reach node).items
      ↔ ∃ root ∈ graph.roots node, Search.Reaches graph.contents root item :=
  Search.mem_discovery_iff graph.mem_items_of_contents
    graph.length_items_lt _ _

/-- Whether a search has come to a node: to an item by finding it, to a function by starting there
or by finding what it stands in. -/
def Reach.Includes (reach : Reach) : Node → Prop
  | .item item => item ∈ reach.items
  | .function place => reach.start = .function place ∨ place.container ∈ reach.items

theorem includes_start (node : Node) : (graph.reach node).Includes node := by
  cases node with
  | item item => exact mem_reach_items_iff.mpr ⟨item, List.mem_singleton_self _, .refl⟩
  | function place => exact Or.inl rfl

/-- The search comes to whatever a node contains to which it has come. -/
theorem includes_step {node between last : Node} (before : (graph.reach node).Includes between)
    (step : graph.Contains between last) : (graph.reach node).Includes last := by
  have closed : ∀ {item inner : Item}, item ∈ (graph.reach node).items →
      inner ∈ graph.contents item → inner ∈ (graph.reach node).items := by
    intro item inner found member
    obtain ⟨root, isRoot, path⟩ := mem_reach_items_iff.mp found
    exact mem_reach_items_iff.mpr ⟨root, isRoot, path.tail member⟩
  cases between with
  | item item =>
    cases last with
    | item inner => exact closed before (mem_contents_of_contains step)
    | function place =>
      obtain ⟨same, -⟩ := container_of_contains step
      cases same
      exact Or.inr before
  | function place =>
    obtain ⟨function, found, type, mentioned, rfl⟩ := contains_function_iff.mp step
    -- the search has no functions: it starts behind one or passes over it in its container
    rcases before with start | inContainer
    · refine mem_reach_items_iff.mpr ⟨type.item, ?_, .refl⟩
      change node = .function place at start
      simp only [start, roots, found]
      exact List.mem_map_of_mem mentioned
    · exact closed inContainer (mem_contents_container found mentioned)

/-- **The search comes to exactly what the node reaches.** -/
theorem includes_iff {node reached : Node}
    (present : ∀ place, reached = .function place →
      ∃ function, graph.function? place = some function) :
    (graph.reach node).Includes reached ↔ graph.Reaches node reached := by
  have sound : ∀ item ∈ (graph.reach node).items, graph.Reaches node (.item item) := by
    intro item found
    obtain ⟨root, isRoot, path⟩ := mem_reach_items_iff.mp found
    exact (reaches_of_mem_roots isRoot).trans (reaches_of_contents path)
  constructor
  · intro included
    cases reached with
    | item item => exact sound item included
    | function place =>
      rcases included with start | inContainer
      · change node = .function place at start
        rw [start]
      · obtain ⟨function, found⟩ := present place rfl
        exact (sound _ inContainer).tail (contains_container found)
  · intro path
    -- `present` is about the last node of the path only, so the induction goes without it
    clear present
    induction path with
    | refl => exact includes_start node
    | tail _ step ih => exact includes_step ih step

/-! ### Links back -/

theorem backLinks_type {id : TypeId} {type : TypeDef} (found : graph.type? id = some type) :
    graph.backLinks id.item
      = type.owner.item?.toList ++ (graph.ownerPackage? type.owner).toList.map Id.item := by
  obtain ⟨index⟩ := id
  simp only [Id.item, backLinks, found]

theorem linkedBack_of_mem_backLinks {item target : Item} (member : target ∈ graph.backLinks item) :
    graph.LinkedBack (.item item) (.item target) := by
  obtain ⟨arena, index⟩ := item
  cases arena with
  | package => cases member
  | world =>
    simp only [backLinks, List.mem_map, Option.mem_toList, Option.bind_eq_some_iff] at member
    obtain ⟨package, ⟨world, found, owned⟩, rfl⟩ := member
    exact .worldPackage found owned
  | interface =>
    simp only [backLinks, List.mem_map, Option.mem_toList, Option.bind_eq_some_iff] at member
    obtain ⟨package, ⟨interface, found, owned⟩, rfl⟩ := member
    exact .interfacePackage found owned
  | type =>
    cases found : graph.type? ⟨index⟩ with
    | none => simp [backLinks, found] at member
    | some type =>
      change target ∈ graph.backLinks (Id.item (⟨index⟩ : TypeId)) at member
      rw [backLinks_type found, List.mem_append, Option.mem_toList] at member
      rcases member with owned | inPackage
      · exact .owner found owned
      · obtain ⟨package, standing, rfl⟩ := List.mem_map.mp inPackage
        cases owner : type.owner <;>
          simp only [owner, ownerPackage?, Option.mem_toList, Option.bind_eq_bind,
            Option.bind_eq_some_iff, reduceCtorEq] at standing
        · obtain ⟨world, held, inside⟩ := standing
          exact .ownerWorldPackage found owner held inside
        · obtain ⟨interface, held, inside⟩ := standing
          exact .ownerInterfacePackage found owner held inside

theorem mem_backLinks_of_linkedBack {item target : Item}
    (linked : graph.LinkedBack (.item item) (.item target)) : target ∈ graph.backLinks item := by
  cases linked with
  | worldPackage found owned | interfacePackage found owned =>
    refine List.mem_map_of_mem (Option.mem_toList.mpr ?_)
    exact Option.bind_eq_some_iff.mpr ⟨_, found, owned⟩
  | owner found owned =>
    rw [backLinks_type found]
    exact List.mem_append_left _ (Option.mem_toList.mpr owned)
  | ownerWorldPackage found owned standing inside
  | ownerInterfacePackage found owned standing inside =>
    rw [backLinks_type found, owned]
    refine List.mem_append_right _ (List.mem_map_of_mem (Option.mem_toList.mpr ?_))
    exact Option.bind_eq_some_iff.mpr ⟨_, standing, inside⟩

/-! ### Dependency -/

theorem mem_sideFunctionPlaces_iff {id : WorldId} {side : Side}
    {items : OrderedMap WorldKey WorldItem} {place : FunctionPlace} :
    place ∈ sideFunctionPlaces id side items
      ↔ ∃ key function, (key, .function function) ∈ items.entries
        ∧ place = .world id side key := by
  rw [sideFunctionPlaces, List.mem_filterMap]
  constructor
  · rintro ⟨⟨key, entry⟩, listed, same⟩
    cases entry with
    | function function => exact ⟨key, function, listed, (Option.some.inj same).symm⟩
    | interface | type => cases same
  · rintro ⟨key, function, listed, rfl⟩
    exact ⟨_, listed, rfl⟩

/-- The places of functions are those at which there is one. -/
theorem mem_functionPlaces_iff {place : FunctionPlace} :
    place ∈ graph.functionPlaces ↔ ∃ function, graph.function? place = some function := by
  simp only [functionPlaces, List.mem_append, List.mem_flatMap, mem_ids_iff]
  constructor
  · rintro (⟨id, -, member⟩ | ⟨id, -, member⟩)
    · cases found : graph.world? id with
      | none => simp [worldFunctionPlaces, found] at member
      | some world =>
        simp only [worldFunctionPlaces, found, List.mem_append, mem_sideFunctionPlaces_iff] at member
        rcases member with ⟨key, function, listed, rfl⟩ | ⟨key, function, listed, rfl⟩
        · exact ⟨function, function?_world_iff.mpr ⟨world, found, listed⟩⟩
        · exact ⟨function, function?_world_iff.mpr ⟨world, found, listed⟩⟩
    · cases found : graph.interface? id with
      | none => simp [interfaceFunctionPlaces, found] at member
      | some interface =>
        simp only [interfaceFunctionPlaces, found, List.mem_map] at member
        obtain ⟨name, listed, rfl⟩ := member
        obtain ⟨function, listed⟩ := (OrderedMap.mem_keys_iff _).mp listed
        exact ⟨function, function?_interface_iff.mpr ⟨interface, found, listed⟩⟩
  · rintro ⟨function, held⟩
    have inside := holds_of_contains (contains_container held)
    cases place with
    | world id side key =>
      obtain ⟨world, found, listed⟩ := function?_world_iff.mp held
      refine Or.inl ⟨id, inside, ?_⟩
      simp only [worldFunctionPlaces, found, List.mem_append, mem_sideFunctionPlaces_iff]
      cases side with
      | imports => exact Or.inl ⟨key, function, listed, rfl⟩
      | exports => exact Or.inr ⟨key, function, listed, rfl⟩
    | interface id name =>
      obtain ⟨interface, found, listed⟩ := function?_interface_iff.mp held
      refine Or.inr ⟨id, inside, ?_⟩
      simp only [interfaceFunctionPlaces, found]
      exact List.mem_map_of_mem ((OrderedMap.mem_keys_iff _).mpr ⟨function, listed⟩)

/-- The functions among the nodes are those at the places of functions. -/
theorem function_mem_nodes_iff {place : FunctionPlace} :
    .function place ∈ graph.nodes ↔ ∃ function, graph.function? place = some function := by
  rw [← mem_functionPlaces_iff]
  simp [nodes]

/-- **A node depends on exactly the nodes that it reaches, and those that something it reaches is
linked back to.** -/
theorem dependsOn_iff (graph : Graph) (node : Node) {dependency : Node}
    (present : dependency ∈ graph.nodes) :
    graph.dependsOn node dependency = true
      ↔ ∃ reached, graph.Reaches node reached
        ∧ (reached = dependency ∨ graph.LinkedBack reached dependency) := by
  cases dependency with
  | item item =>
    simp only [dependsOn, Reach.touches, List.any_eq_true, Bool.or_eq_true, decide_eq_true_eq,
      List.contains_iff_mem]
    constructor
    · rintro ⟨reached, found, touched⟩
      refine ⟨.item reached, (includes_iff (by simp)).mp found, ?_⟩
      exact touched.imp (congrArg Node.item) linkedBack_of_mem_backLinks
    · rintro ⟨reached, path, touched⟩
      cases reached with
      | item reached =>
        have included : (graph.reach node).Includes (.item reached) :=
          (includes_iff (by simp)).mpr path
        refine ⟨reached, included, ?_⟩
        exact touched.imp Node.item.inj mem_backLinks_of_linkedBack
      | function place =>
        rcases touched with same | linked
        · cases same
        · cases linked
  | function place =>
    have held := function_mem_nodes_iff.mp present
    have included : graph.dependsOn node (.function place) = true
        ↔ (graph.reach node).Includes (.function place) := by
      simp [dependsOn, Reach.touches, Reach.Includes]
    rw [included, includes_iff (by rintro _ ⟨⟩; exact held)]
    constructor
    · exact fun path => ⟨_, path, Or.inl rfl⟩
    · rintro ⟨reached, path, rfl | linked⟩
      · exact path
      · cases linked

/-- Two types of an interface that refer to each other. -/
def circle : Graph where
  interfaces := #[
    { name := some "i", types := .ofList [("t", ⟨0⟩), ("r", ⟨1⟩)], package := some ⟨0⟩ }]
  types := #[
    { name := some "t", kind := .list (.defined ⟨1⟩), owner := .interface ⟨0⟩ },
    { name := some "r", kind := .option (.defined ⟨0⟩), owner := .interface ⟨0⟩ }]
  packages := #[{ name := { ns := "a", package := "b" }, interfaces := .ofList [("i", ⟨0⟩)] }]
  packageNames := .ofList [({ ns := "a", package := "b" }, ⟨0⟩)]

/-- In a circle, a type depends on the package of its owner. -/
theorem dependsOn_circle :
    .item ⟨.package, 0⟩ ∈ circle.nodes
      ∧ ∃ reached, circle.Reaches (.item ⟨.type, 0⟩) reached
        ∧ (reached = .item ⟨.package, 0⟩ ∨ circle.LinkedBack reached (.item ⟨.package, 0⟩)) :=
  have present : .item ⟨.package, 0⟩ ∈ circle.nodes := by decide +kernel
  ⟨present, (dependsOn_iff circle (.item ⟨.type, 0⟩) present).mp (by decide +kernel)⟩

end Graph

end WitGraph
