/-
**The nodes of a graph and what they contain.**

`Entity.nodes` lists what an entity contains directly, so that containment is a look-up
(`contains_item_iff`). Where links stay within the arenas, so do containment and the links back
(`IsClosed.hasNode_of_reaches`, `IsClosed.holds_of_mem_backLinks`).

Interfaces, types and functions (`Node.IsPart`) contain nothing but such nodes; what a path from one of
them passes is not a world and not a package (`isPart_of_reaches`).
-/

import WitGraph.Proofs.Dependency

namespace WitGraph

/-! ### What entities contain -/

/-- The interfaces and worlds that the package lists. -/
def Package.nodes (package : Package) : List Node :=
  package.interfaces.values.map (fun id => .item id.item)
    ++ package.worlds.values.map fun id => .item id.item

/-- The imports and exports of the world with an id. -/
def World.nodes (id : WorldId) (world : World) : List Node :=
  world.imports.entries.map (fun entry => entry.2.node id .imports entry.1)
    ++ world.exports.entries.map fun entry => entry.2.node id .exports entry.1

/-- The types and functions of the interface with an id. -/
def Interface.nodes (id : InterfaceId) (interface : Interface) : List Node :=
  interface.types.values.map (fun type => .item type.item)
    ++ interface.functions.keys.map fun name => .function (.interface id name)

/-- The definitions that the definition refers to. -/
def TypeDef.nodes (type : TypeDef) : List Node :=
  type.kind.directIds.map fun id => .item id.item

/-- The nodes that the entity with an id contains directly. -/
def Entity.nodes : {arena : Arena} → Id arena → Entity arena → List Node
  | .package => fun _ => Package.nodes
  | .world => World.nodes
  | .interface => Interface.nodes
  | .type => fun _ => TypeDef.nodes

/-- The node is an interface, a type or a function. -/
def Node.IsPart : Node → Prop
  | .item ⟨arena, _⟩ => arena = .interface ∨ arena = .type
  | .function _ => True

theorem World.mem_nodes_iff {id : WorldId} {world : World} {node : Node} :
    node ∈ world.nodes id
      ↔ ∃ side, ∃ entry ∈ (world.side side).entries, node = entry.2.node id side entry.1 := by
  rw [nodes, List.mem_append, List.mem_map, List.mem_map]
  constructor
  · rintro (⟨entry, listed, rfl⟩ | ⟨entry, listed, rfl⟩)
    · exact ⟨.imports, entry, listed, rfl⟩
    · exact ⟨.exports, entry, listed, rfl⟩
  · rintro ⟨_ | _, entry, listed, rfl⟩
    · exact Or.inl ⟨entry, listed, rfl⟩
    · exact Or.inr ⟨entry, listed, rfl⟩

theorem WorldItem.isPart_node (id : WorldId) (side : Side) (key : WorldKey) (item : WorldItem) :
    (item.node id side key).IsPart := by
  cases item with
  | interface target stability => exact Or.inl rfl
  | function func => trivial
  | type target => exact Or.inr rfl

/-- The items among what an entity contains are among its links. -/
theorem Entity.mem_links_of_mem_nodes {arena : Arena} {id : Id arena} {entity : Entity arena}
    {item : Item} (member : .item item ∈ entity.nodes id) : item ∈ entity.links := by
  cases arena with
  | package =>
    rcases List.mem_append.mp member with inInterfaces | inWorlds
    · obtain ⟨interface, isValue, ⟨⟩⟩ := List.mem_map.mp inInterfaces
      exact List.mem_append_left _ (List.mem_map_of_mem isValue)
    · obtain ⟨world, isValue, ⟨⟩⟩ := List.mem_map.mp inWorlds
      exact List.mem_append_right _ (List.mem_map_of_mem isValue)
  | world =>
    obtain ⟨side, ⟨key, entry⟩, listed, same⟩ := World.mem_nodes_iff.mp member
    refine Graph.mem_links_of_mem_entryLinks listed (List.mem_append_right _ ?_)
    cases entry <;> cases same <;> exact List.mem_singleton_self _
  | interface =>
    rcases List.mem_append.mp member with inTypes | inFunctions
    · obtain ⟨type, isValue, ⟨⟩⟩ := List.mem_map.mp inTypes
      exact List.mem_append_left _ (List.mem_append_left _ (List.mem_map_of_mem isValue))
    · obtain ⟨name, -, ⟨⟩⟩ := List.mem_map.mp inFunctions
  | type =>
    obtain ⟨type, direct, ⟨⟩⟩ := List.mem_map.mp member
    exact List.mem_append_right _ (List.mem_map_of_mem direct)

namespace Graph

variable {graph : Graph}

/-- **An item contains what its entity contains.** -/
theorem contains_item_iff {arena : Arena} {id : Id arena} {node : Node} :
    graph.Contains (.item id.item) node
      ↔ ∃ entity, graph.entity? id = some entity ∧ node ∈ entity.nodes id := by
  constructor
  · intro contained
    generalize same : Node.item id.item = outer at contained
    obtain ⟨index⟩ := id
    cases contained with
    | packageInterface found listed =>
      cases same
      exact ⟨_, found, List.mem_append_left _ (List.mem_map_of_mem listed)⟩
    | packageWorld found listed =>
      cases same
      exact ⟨_, found, List.mem_append_right _ (List.mem_map_of_mem listed)⟩
    | worldEntry found listed =>
      cases same
      exact ⟨_, found, World.mem_nodes_iff.mpr ⟨_, _, listed, rfl⟩⟩
    | interfaceType found listed =>
      cases same
      exact ⟨_, found, List.mem_append_left _ (List.mem_map_of_mem listed)⟩
    | interfaceFunction found listed =>
      cases same
      exact ⟨_, found, List.mem_append_right _ (List.mem_map_of_mem listed)⟩
    | typeReference found mentioned =>
      cases same
      obtain ⟨type, isType, rfl⟩ := Option.map_eq_some_iff.mp found
      exact ⟨type, isType, List.mem_map_of_mem (Kind.mem_directIds_iff.mpr mentioned)⟩
    | functionResource => cases same
    | functionType => cases same
  · rintro ⟨entity, found, listed⟩
    cases arena with
    | package =>
      rcases List.mem_append.mp listed with inInterfaces | inWorlds
      · obtain ⟨interface, isValue, rfl⟩ := List.mem_map.mp inInterfaces
        exact .packageInterface found isValue
      · obtain ⟨world, isValue, rfl⟩ := List.mem_map.mp inWorlds
        exact .packageWorld found isValue
    | world =>
      obtain ⟨side, entry, inSide, rfl⟩ := World.mem_nodes_iff.mp listed
      exact .worldEntry found inSide
    | interface =>
      rcases List.mem_append.mp listed with inTypes | inFunctions
      · obtain ⟨type, isValue, rfl⟩ := List.mem_map.mp inTypes
        exact .interfaceType found isValue
      · obtain ⟨name, isName, rfl⟩ := List.mem_map.mp inFunctions
        exact .interfaceFunction found isName
    | type =>
      obtain ⟨type, direct, rfl⟩ := List.mem_map.mp listed
      have isKind : graph.kind? id = some (TypeDef.kind entity) :=
        Option.map_eq_some_iff.mpr ⟨entity, found, rfl⟩
      exact .typeReference isKind (Kind.mem_directIds_iff.mp direct)

/-! ### The nodes that are there -/

/-- The node is an item within its arena or a function that stands at its place. -/
def HasNode (graph : Graph) : Node → Prop
  | .item item => graph.Holds item
  | .function place => ∃ function, graph.function? place = some function

theorem mem_nodes_iff {node : Node} : node ∈ graph.nodes ↔ graph.HasNode node := by
  cases node with
  | function place => exact function_mem_nodes_iff
  | item item =>
    have listed : Node.item item ∈ graph.nodes ↔ item ∈ graph.items := by
      simp [nodes, items]
    exact listed.trans (graph.mem_items_iff item)

/-- What is contained in something is there, if links stay within the arenas. -/
theorem IsClosed.hasNode_of_contains (closed : graph.IsClosed) {node inner : Node}
    (contained : graph.Contains node inner) : graph.HasNode inner := by
  cases inner with
  | function place => exact (container_of_contains contained).2
  | item item =>
    cases node with
    | function place =>
      obtain ⟨function, found, type, mentioned, ⟨⟩⟩ := contains_function_iff.mp contained
      exact closed place.container _ (mem_links_of_function? found mentioned)
    | item outer =>
      obtain ⟨entity, found, listed⟩ := contains_item_iff.mp (show graph.Contains
        (.item outer.id.item) (.item item) from contained)
      exact closed.holds_link found (Entity.mem_links_of_mem_nodes listed)

theorem IsClosed.hasNode_of_reaches (closed : graph.IsClosed) {node reached : Node}
    (present : graph.HasNode node) (path : graph.Reaches node reached) : graph.HasNode reached := by
  induction path with
  | refl => exact present
  | tail _ step _ => exact closed.hasNode_of_contains step

/-- Only items are linked back, and only to items. -/
theorem LinkedBack.exists_items {node target : Node} (linked : graph.LinkedBack node target) :
    ∃ item link, node = .item item ∧ target = .item link := by
  cases linked <;> exact ⟨_, _, rfl, rfl⟩

/-- The links back of an item lead to items, if links stay within the arenas. -/
theorem IsClosed.holds_of_mem_backLinks (closed : graph.IsClosed) {item link : Item}
    (member : link ∈ graph.backLinks item) : graph.Holds link := by
  cases linkedBack_of_mem_backLinks member with
  | worldPackage found owned | ownerWorldPackage _ _ found owned
  | interfacePackage found owned | ownerInterfacePackage _ _ found owned =>
    refine closed.holds_link found (List.mem_append_right _ ?_)
    exact Option.mem_toList.mpr (Option.map_eq_some_iff.mpr ⟨_, owned, rfl⟩)
  | owner found owned =>
    exact closed.holds_link found (List.mem_append_left _ (Option.mem_toList.mpr owned))

/-! ### Parts -/

/-- Parts contain only parts. -/
theorem isPart_of_contains {node inner : Node} (part : node.IsPart)
    (contained : graph.Contains node inner) : inner.IsPart := by
  cases contained with
  | packageInterface => exact Or.inl rfl
  | packageWorld => rcases part with part | part <;> cases part
  | worldEntry => exact WorldItem.isPart_node ..
  | interfaceType => exact Or.inr rfl
  | interfaceFunction => trivial
  | typeReference => exact Or.inr rfl
  | functionResource => exact Or.inr rfl
  | functionType => exact Or.inr rfl

theorem isPart_of_reaches {node reached : Node} (part : node.IsPart)
    (path : graph.Reaches node reached) : reached.IsPart := by
  induction path with
  | refl => exact part
  | tail _ step ih => exact isPart_of_contains ih step

end Graph

end WitGraph
