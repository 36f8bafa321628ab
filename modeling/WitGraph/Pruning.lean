/-
**Pruning.**

`Graph.pruneTo` copies the part of a graph that is related to a target node. It keeps, in their
order,

* the packages that depend on the target or that the target depends on,
* the worlds that depend on the target, with their imports and exports limited to types and to the
  interfaces and functions that the target depends on,
* the interfaces that the target depends on,

and with them the least set of items that is closed under these rules: what is left in a kept
world, the types of a kept interface and of its functions, the types that a kept type refers to, the
owner of a kept type, and the package of a kept world or interface. Kept packages list only
interfaces and worlds that are kept.

`keeps` states the rules for one item, and a search from the first items finds the closure. Rounds that
add to the first items until there is nothing to add find the same (`Graph.exists_rounds_settles`).
-/

import WitGraph.Copying
import WitGraph.Liveness

namespace WitGraph

/-- The items of a graph that the target of a pruning needs. -/
structure Pruning where
  graph : Graph
  target : Node
  /-- What the target reaches. -/
  reach : Graph.Reach

namespace Pruning

/-- The pruning of a graph to a target. -/
def start (graph : Graph) (target : Node) : Pruning where
  graph := graph
  target := target
  reach := graph.reach target

/-- Whether the target depends on a node. -/
def isNeeded (pruning : Pruning) (node : Node) : Bool :=
  pruning.reach.touches pruning.graph node

/-- Whether a node depends on the target. -/
def needsTarget (pruning : Pruning) (node : Node) : Bool :=
  pruning.graph.dependsOn node pruning.target

/-! ### Worlds -/

/-- Whether an import or export stays in a pruned world. -/
def keepsEntry (pruning : Pruning) (id : WorldId) (side : Side) (key : WorldKey) :
    WorldItem → Bool
  | .interface interface _ => pruning.isNeeded (.item interface.item)
  | .function _ => pruning.isNeeded (.function (.world id side key))
  | .type _ => true

/-- A world without the interfaces and functions that the target does not depend on. -/
def pruneWorld (pruning : Pruning) (id : WorldId) (world : World) : World :=
  { world with
    imports := world.imports.filter (pruning.keepsEntry id .imports)
    exports := world.exports.filter (pruning.keepsEntry id .exports) }

/-! ### The items that are kept -/

/-- The items with which keeping starts. -/
def isFirst (pruning : Pruning) (item : Item) : Bool :=
  match item.arena with
  | .package => pruning.needsTarget (.item item) || pruning.isNeeded (.item item)
  | .world => pruning.needsTarget (.item item)
  | .interface => pruning.isNeeded (.item item)
  | .type => false

/-- The items that an import or export keeps. -/
def itemKeeps : WorldItem → List Item
  | .interface id _ => [id.item]
  | .function function => function.signatureIds.map Id.item
  | .type id => [id.item]

/-- The items that must be kept with an item. -/
def keeps (pruning : Pruning) (item : Item) : List Item :=
  match item with
  | ⟨.package, _⟩ => []
  | ⟨.world, index⟩ =>
    match pruning.graph.world? ⟨index⟩ with
    | none => []
    | some world =>
      (pruning.pruneWorld ⟨index⟩ world).items.flatMap itemKeeps
        ++ (world.package.map Id.item).toList
  | ⟨.interface, index⟩ =>
    (pruning.graph.interfaceTypeIds ⟨index⟩).map Id.item ++ pruning.graph.backLinks item
  | ⟨.type, index⟩ =>
    (pruning.graph.directIds ⟨index⟩).map Id.item
      ++ (((pruning.graph.type? ⟨index⟩).map TypeDef.owner).bind Owner.item?).toList

/-- The items that are kept. -/
def kept (pruning : Pruning) : Progress Item :=
  Search.visitAll pruning.keeps (pruning.graph.itemCount + 1) {}
    (pruning.graph.items.filter pruning.isFirst)

/-! ### The result -/

/-- A package with only the interfaces and worlds that are kept. -/
def prunePackage (isKept : Item → Bool) (package : Package) : Package :=
  { package with
    interfaces := package.interfaces.filter fun _ id => isKept id.item
    worlds := package.worlds.filter fun _ id => isKept id.item }

/-- What a kept item contains in the result, before its ids are replaced. -/
def contents? (pruning : Pruning) (isKept : Item → Bool) :
    (item : Item) → Option (Entity item.arena)
  | ⟨.package, index⟩ =>
    ((pruning.graph.package? ⟨index⟩).map (prunePackage isKept) : Option Package)
  | ⟨.world, index⟩ =>
    ((pruning.graph.world? ⟨index⟩).map (pruning.pruneWorld ⟨index⟩) : Option World)
  | ⟨.interface, index⟩ => (pruning.graph.interface? ⟨index⟩ : Option Interface)
  | ⟨.type, index⟩ => (pruning.graph.type? ⟨index⟩ : Option TypeDef)

/-- The copier once all kept items have been copied. -/
def copier (pruning : Pruning) : Copier :=
  let isKept := pruning.kept.hasEntered
  pruning.graph.transfer (pruning.graph.items.filter isKept) (pruning.contents? isKept)

end Pruning

namespace Graph

/-- The part of a graph that is related to a node. -/
def pruneTo (graph : Graph) (target : Node) : Graph :=
  (Pruning.start graph target).copier.target.withPackageNames

end Graph

end WitGraph
