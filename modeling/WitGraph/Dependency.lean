/-
**Dependencies.**

A `Node` is an item of the graph or a function, which is known by its place. A node contains other
nodes: a package its interfaces and worlds, a world its imports and exports, an interface its types
and functions, a type the definitions that it refers to, a function those of its resource, its
parameters and its results. A node depends on

* every node that it reaches by going from a node to what it contains,
* the package of every world and interface that it reaches, and
* the owner of every type that it reaches, and the package of that owner.

The links back to owners and packages are looked at but not followed. `Graph.dependsOn` decides
this; `Graph.reach` finds the items that a node reaches, and functions need no search of their own,
since they are reached with the world or interface that they stand in. Asking one node after another,
functions among them, until one matches gives the same answer (`Graph.answers_dependsOn`).
-/

import WitGraph.Graph.Basic
import WitGraph.Search.DepthFirst

namespace WitGraph

instance : Numbered Item := ⟨Item.number, Item.number_injective⟩

/-- The place of a function. -/
inductive FunctionPlace where
  /-- Under a name in an interface. -/
  | interface (id : InterfaceId) (name : String)
  /-- Under a key in a world. -/
  | world (id : WorldId) (side : Side) (key : WorldKey)
deriving DecidableEq, Repr

/-- The world or interface that a function stands in. -/
def FunctionPlace.container : FunctionPlace → Item
  | .interface id _ => id.item
  | .world id _ _ => id.item

/-- What can depend on something and be depended on. -/
inductive Node where
  | item (item : Item)
  | function (place : FunctionPlace)
deriving DecidableEq, Repr

namespace Graph

/-! ### Containment -/

/-- The items that an import or export contains, those of a function being its definitions. -/
def itemContents : WorldItem → List Item
  | .interface id _ => [id.item]
  | .function function => function.mentionedIds.map Id.item
  | .type id => [id.item]

/-- The items that an item contains, functions being replaced by what they contain. -/
def contents (graph : Graph) (item : Item) : List Item :=
  match item with
  | ⟨.package, index⟩ =>
    match graph.package? ⟨index⟩ with
    | none => []
    | some package =>
      package.interfaces.values.map Id.item ++ package.worlds.values.map Id.item
  | ⟨.world, index⟩ =>
    match graph.world? ⟨index⟩ with
    | none => []
    | some world => world.items.flatMap itemContents
  | ⟨.interface, index⟩ =>
    match graph.interface? ⟨index⟩ with
    | none => []
    | some interface =>
      interface.types.values.map Id.item
        ++ interface.functions.values.flatMap fun function => function.mentionedIds.map Id.item
  | ⟨.type, index⟩ =>
    match graph.kind? ⟨index⟩ with
    | none => []
    | some kind => kind.directIds.map Id.item

/-- The function at a place. -/
def function? (graph : Graph) : FunctionPlace → Option Function
  | .interface id name => do (← graph.interface? id).functions.find? name
  | .world id side key => do ((← graph.world? id).side side).find? key >>= WorldItem.function?

/-- The items at which the search from a node starts. -/
def roots (graph : Graph) : Node → List Item
  | .item item => [item]
  | .function place =>
    match graph.function? place with
    | none => []
    | some function => function.mentionedIds.map Id.item

/-! ### Links back -/

/-- The package of an owner. -/
def ownerPackage? (graph : Graph) : Owner → Option PackageId
  | .world id => do (← graph.world? id).package
  | .interface id => do (← graph.interface? id).package
  | .none => none

/-- The owner and packages that an item is linked back to. -/
def backLinks (graph : Graph) (item : Item) : List Item :=
  match item with
  | ⟨.package, _⟩ => []
  | ⟨.world, index⟩ => ((graph.world? ⟨index⟩).bind World.package).toList.map Id.item
  | ⟨.interface, index⟩ => ((graph.interface? ⟨index⟩).bind Interface.package).toList.map Id.item
  | ⟨.type, index⟩ =>
    match graph.type? ⟨index⟩ with
    | none => []
    | some type => type.owner.item?.toList ++ (graph.ownerPackage? type.owner).toList.map Id.item

/-! ### Dependency -/

/-- What a node reaches by containment. -/
structure Reach where
  start : Node
  /-- The items that are reached. -/
  items : List Item

/-- Searches from a node. -/
def reach (graph : Graph) (node : Node) : Reach where
  start := node
  items := Search.discovery graph.contents (graph.itemCount + 1) (graph.roots node)

/-- Whether something that is reached is the node or is linked back to it. -/
def Reach.touches (graph : Graph) (reach : Reach) : Node → Bool
  | .item item =>
    reach.items.any fun reached => reached = item || (graph.backLinks reached).contains item
  | .function place => reach.start = .function place || reach.items.contains place.container

/-- Whether a node depends on another one. -/
def dependsOn (graph : Graph) (node dependency : Node) : Bool :=
  (graph.reach node).touches graph dependency

/-! ### All nodes -/

/-- The functions of an interface. -/
def interfaceFunctionPlaces (graph : Graph) (id : InterfaceId) : List FunctionPlace :=
  match graph.interface? id with
  | none => []
  | some interface => interface.functions.keys.map (.interface id)

/-- The functions of one side of a world. -/
def sideFunctionPlaces (id : WorldId) (side : Side) (items : OrderedMap WorldKey WorldItem) :
    List FunctionPlace :=
  items.entries.filterMap fun entry => entry.2.function?.map fun _ => .world id side entry.1

/-- The functions of a world. -/
def worldFunctionPlaces (graph : Graph) (id : WorldId) : List FunctionPlace :=
  match graph.world? id with
  | none => []
  | some world =>
    sideFunctionPlaces id .imports world.imports ++ sideFunctionPlaces id .exports world.exports

/-- The functions of all worlds and then of all interfaces. -/
def functionPlaces (graph : Graph) : List FunctionPlace :=
  (graph.ids .world).flatMap graph.worldFunctionPlaces
    ++ (graph.ids .interface).flatMap graph.interfaceFunctionPlaces

/-- All packages, worlds, interfaces, types and functions, in this order. -/
def nodes (graph : Graph) : List Node :=
  (graph.ids .package).map (.item ·.item) ++ (graph.ids .world).map (.item ·.item)
    ++ (graph.ids .interface).map (.item ·.item) ++ (graph.ids .type).map (.item ·.item)
    ++ graph.functionPlaces.map .function

/-- For every node, on which nodes it depends. -/
def dependencyMatrix (graph : Graph) : List (List Bool) :=
  graph.nodes.map fun node =>
    let reach := graph.reach node
    graph.nodes.map (reach.touches graph)

end Graph

end WitGraph
