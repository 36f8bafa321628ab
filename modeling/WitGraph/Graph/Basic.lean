/-
**Graphs of interface packages.**

A `Graph` holds packages, worlds, interfaces and type definitions in one arena each. An `Entity` of
an arena is what the arena holds. Two functions say which items an entity refers to:

* `Entity.links` lists all of them, in the order in which they are declared, with the links back to
  the owner and to the package; these are the items that a copy of the entity needs;
* `Graph.contents` (in `Dependency`) lists only what the entity contains.

`Entity.rename` replaces every id of an entity.
-/

import WitGraph.Graph.Function
import WitGraph.Graph.Kind
import WitGraph.Ident
import WitGraph.OrderedMap

namespace WitGraph

/-! ### Worlds -/

/-- The key of an import or export: a name, or an interface without a name of its own. -/
inductive WorldKey where
  | name (text : String)
  | interface (id : InterfaceId)
deriving DecidableEq, Repr

/-- An import or export. -/
inductive WorldItem where
  | interface (id : InterfaceId) (stability : Stability)
  | function (function : Function)
  | type (id : TypeId)
deriving DecidableEq, Repr

/-- What a component needs from outside and what it offers. -/
structure World where
  name : String
  imports : OrderedMap WorldKey WorldItem := {}
  exports : OrderedMap WorldKey WorldItem := {}
  package : Option PackageId := none
  docs : Docs := {}
  stability : Stability := .unknown
deriving DecidableEq, Repr

/-- The two sides of a world. -/
inductive Side where
  | imports
  | exports
deriving DecidableEq, Repr

/-! ### Interfaces, types and packages -/

/-- A set of types and functions. -/
structure Interface where
  /-- The name; none if the interface stands inside a world. -/
  name : Option String := none
  types : OrderedMap String TypeId := {}
  functions : OrderedMap String Function := {}
  docs : Docs := {}
  stability : Stability := .unknown
  package : Option PackageId := none
deriving DecidableEq, Repr

/-- Where a type is defined. -/
inductive Owner where
  | world (id : WorldId)
  | interface (id : InterfaceId)
  | none
deriving DecidableEq, Repr

/-- A type definition. -/
structure TypeDef where
  name : Option String := none
  kind : TypeKind
  owner : Owner := .none
  docs : Docs := {}
  stability : Stability := .unknown
deriving DecidableEq, Repr

/-- A set of interfaces and worlds under one name. -/
structure Package where
  name : Ident
  docs : Docs := {}
  interfaces : OrderedMap String InterfaceId := {}
  worlds : OrderedMap String WorldId := {}
deriving DecidableEq, Repr

/-- Packages, worlds, interfaces and type definitions that refer to each other by id. -/
structure Graph where
  worlds : Array World := #[]
  interfaces : Array Interface := #[]
  types : Array TypeDef := #[]
  packages : Array Package := #[]
  /-- The packages by name. -/
  packageNames : OrderedMap Ident PackageId := {}
deriving DecidableEq, Repr

instance : Inhabited Graph := ⟨{}⟩

/-! ### Parts of a world -/

namespace WorldKey

/-- The key as it is written in a document. -/
def text : WorldKey → String
  | .name text => text
  | .interface id => s!"interface-{id.index}"

/-- The key with its id renamed. -/
def rename (via : Renaming) : WorldKey → WorldKey
  | .name text => .name text
  | .interface id => .interface (via id)

/-- The name, if the key is one. -/
def name? : WorldKey → Option String
  | .name text => some text
  | .interface _ => none

/-- The interface that the key names. -/
def interface? : WorldKey → Option InterfaceId
  | .name _ => none
  | .interface id => some id

end WorldKey

namespace WorldItem

/-- The interface that is imported or exported. -/
def interface? : WorldItem → Option InterfaceId
  | .interface id _ => some id
  | _ => none

/-- The function that is imported or exported. -/
def function? : WorldItem → Option Function
  | .function func => some func
  | _ => none

/-- The type that is imported or exported. -/
def type? : WorldItem → Option TypeId
  | .type id => some id
  | _ => none

/-- The items that the import or export refers to. -/
def links : WorldItem → List Item
  | .interface id _ => [id.item]
  | .function func => func.mentionedIds.map Id.item
  | .type id => [id.item]

/-- The import or export with its ids renamed. -/
def rename (via : Renaming) : WorldItem → WorldItem
  | .interface id stability => .interface (via id) stability
  | .function func => .function (func.rename via)
  | .type id => .type (via id)

end WorldItem

namespace World

/-- The imports or the exports. -/
def side (world : World) : Side → OrderedMap WorldKey WorldItem
  | .imports => world.imports
  | .exports => world.exports

/-- The world with other imports or exports. -/
def setSide (world : World) (side : Side) (items : OrderedMap WorldKey WorldItem) : World :=
  match side with
  | .imports => { world with imports := items }
  | .exports => { world with exports := items }

/-- The imports and then the exports, with their keys. -/
def entries (world : World) : List (WorldKey × WorldItem) :=
  world.imports.entries ++ world.exports.entries

/-- The imports and then the exports. -/
def items (world : World) : List WorldItem :=
  world.entries.map Prod.snd

/-- The interfaces among the imports and exports. -/
def interfaces (world : World) : List InterfaceId :=
  world.items.filterMap WorldItem.interface?

/-- The functions among the imports and exports. -/
def functions (world : World) : List Function :=
  world.items.filterMap WorldItem.function?

/-- The types among the imports and exports. -/
def types (world : World) : List TypeId :=
  world.items.filterMap WorldItem.type?

end World

/-! ### Entities of an arena -/

/-- What an arena holds. -/
def Entity : Arena → Type
  | .package => Package
  | .world => World
  | .interface => Interface
  | .type => TypeDef

namespace Graph

/-- The entities of an arena. -/
def arena (graph : Graph) : (arena : Arena) → Array (Entity arena)
  | .package => graph.packages
  | .world => graph.worlds
  | .interface => graph.interfaces
  | .type => graph.types

/-- The graph with other entities in an arena. -/
def setArena (graph : Graph) : (arena : Arena) → Array (Entity arena) → Graph
  | .package, packages => { graph with packages }
  | .world, worlds => { graph with worlds }
  | .interface, interfaces => { graph with interfaces }
  | .type, types => { graph with types }

/-- How many entities an arena holds. -/
def size (graph : Graph) (arena : Arena) : Nat :=
  (graph.arena arena).size

/-- The entity with an id. -/
def entity? (graph : Graph) {arena : Arena} (id : Id arena) : Option (Entity arena) :=
  (graph.arena arena)[id.index]?

/-- The package with an id. -/
def package? (graph : Graph) (id : PackageId) : Option Package := graph.packages[id.index]?

/-- The world with an id. -/
def world? (graph : Graph) (id : WorldId) : Option World := graph.worlds[id.index]?

/-- The interface with an id. -/
def interface? (graph : Graph) (id : InterfaceId) : Option Interface := graph.interfaces[id.index]?

/-- The type definition with an id. -/
def type? (graph : Graph) (id : TypeId) : Option TypeDef := graph.types[id.index]?

/-- The kind of the type definition with an id. -/
def kind? (graph : Graph) (id : TypeId) : Option TypeKind :=
  (graph.type? id).map TypeDef.kind

/-- All ids of an arena in order. -/
def ids (graph : Graph) (arena : Arena) : List (Id arena) :=
  (List.range (graph.size arena)).map Id.mk

/-- How many entities there are in all arenas. -/
def itemCount (graph : Graph) : Nat :=
  graph.packages.size + graph.worlds.size + graph.interfaces.size + graph.types.size

/-- The name of a package by its id. -/
def packageName? (graph : Graph) (id : PackageId) : Option Ident :=
  (graph.package? id).map Package.name

/-- The graph with another entity under an id. -/
def setEntity (graph : Graph) {arena : Arena} (id : Id arena) (entity : Entity arena) : Graph :=
  graph.setArena arena ((graph.arena arena).setIfInBounds id.index entity)

/-- The graph with one more entity at the end of an arena. -/
def push (graph : Graph) (arena : Arena) (entity : Entity arena) : Graph :=
  graph.setArena arena ((graph.arena arena).push entity)

end Graph

/-! ### Links and renaming -/

namespace Owner

/-- The owner as an item. -/
def item? : Owner → Option Item
  | .world id => some id.item
  | .interface id => some id.item
  | .none => Option.none

/-- The owner with its id renamed. -/
def rename (via : Renaming) : Owner → Owner
  | .world id => .world (via id)
  | .interface id => .interface (via id)
  | .none => .none

end Owner

/-- The items that an entry of a world refers to: its key and then the import or export. -/
def WorldItem.entryLinks (entry : WorldKey × WorldItem) : List Item :=
  (entry.1.interface?.map Id.item).toList ++ entry.2.links

/-- Imports or exports with their ids renamed. -/
def WorldItem.renameEntries (via : Renaming) (items : OrderedMap WorldKey WorldItem) :
    OrderedMap WorldKey WorldItem :=
  .ofList (items.entries.map fun entry => (entry.1.rename via, entry.2.rename via))

namespace Package

/-- The items that the package refers to. -/
def links (package : Package) : List Item :=
  package.interfaces.values.map Id.item ++ package.worlds.values.map Id.item

/-- The package with its ids renamed. -/
def rename (via : Renaming) (package : Package) : Package :=
  { package with
    interfaces := package.interfaces.mapValues via
    worlds := package.worlds.mapValues via }

end Package

namespace World

/-- The items that the world refers to. -/
def links (world : World) : List Item :=
  world.entries.flatMap WorldItem.entryLinks ++ (world.package.map Id.item).toList

/-- The world with its ids renamed. -/
def rename (via : Renaming) (world : World) : World :=
  { world with
    imports := WorldItem.renameEntries via world.imports
    exports := WorldItem.renameEntries via world.exports
    package := world.package.map via }

end World

namespace Interface

/-- The items that the interface refers to. -/
def links (interface : Interface) : List Item :=
  interface.types.values.map Id.item
    ++ interface.functions.values.flatMap (fun function => function.mentionedIds.map Id.item)
    ++ (interface.package.map Id.item).toList

/-- The interface with its ids renamed. -/
def rename (via : Renaming) (interface : Interface) : Interface :=
  { interface with
    types := interface.types.mapValues via
    functions := interface.functions.mapValues (Function.rename via)
    package := interface.package.map via }

end Interface

namespace TypeDef

/-- The items that the definition refers to. -/
def links (type : TypeDef) : List Item :=
  type.owner.item?.toList ++ type.kind.directIds.map Id.item

/-- The definition with its ids renamed. -/
def rename (via : Renaming) (type : TypeDef) : TypeDef :=
  { type with kind := type.kind.rename via, owner := type.owner.rename via }

end TypeDef

namespace Entity

/-- The items that an entity refers to, in the order of its parts. -/
def links : {arena : Arena} → Entity arena → List Item
  | .package => Package.links
  | .world => World.links
  | .interface => Interface.links
  | .type => TypeDef.links

/-- The entity with every id renamed. -/
def rename (via : Renaming) : {arena : Arena} → Entity arena → Entity arena
  | .package => Package.rename via
  | .world => World.rename via
  | .interface => Interface.rename via
  | .type => TypeDef.rename via

/-- What stands in for a copy of the entity before its contents are there: the name and
documentation of a package, and nothing else. -/
def placeholder : {arena : Arena} → Entity arena → Entity arena
  | .package => fun (package : Package) =>
    ({ name := package.name, docs := package.docs } : Package)
  | .world => fun _ => ({ name := "" } : World)
  | .interface => fun _ => ({} : Interface)
  | .type => fun _ => ({ kind := .unknown } : TypeDef)

end Entity

namespace Graph

/-- The items that an item refers to. -/
def links (graph : Graph) (item : Item) : List Item :=
  match graph.entity? item.id with
  | none => []
  | some entity => entity.links

end Graph

end WitGraph
