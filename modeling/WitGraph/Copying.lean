/-
**Copying items between graphs.**

A `Copier` copies items of a source graph into a target graph, together with everything that they
refer to, links back to owners and packages included. Every item is copied at most once: the `memo`
tells where its copy is. What is in the target already stays as it is.

* `Copier.reserve` makes room for a copy, a placeholder until it is filled;
* `Copier.bring` finds, from some items, all items that have no copy yet, makes room for each in
  the order of their discovery, and then fills the room with the item, its ids replaced by those of
  the copies;
* `Copier.populate` fills the copy of an item with given contents, which need not be those of the
  source.

Copying what an item refers to by recursion, while the item itself has room but is not filled yet, comes
to the same (`Copier.foldl_copyInDepth`).

`Graph.deepClone` copies a whole graph to the same positions.
-/

import WitGraph.Dependency

namespace WitGraph

/-- The state of copying. -/
structure Copier where
  source : Graph
  target : Graph := {}
  /-- The position of the copy of every item that has one, the latest first. -/
  memo : List (Item × Nat) := []

namespace Copier

/-- The position of the copy of an item. -/
def position? (copier : Copier) (item : Item) : Option Nat := copier.memo.lookup item

/-- The id of the copy. An item without a copy keeps its id. -/
def renamed (copier : Copier) : Renaming := fun id =>
  match copier.position? id.item with
  | some position => ⟨position⟩
  | none => id

/-- The items that have a copy. -/
def copied (copier : Copier) : Marks := .ofList (copier.memo.map (·.1.number))

/-- Makes room for the copy of an item, unless there is room already. -/
def reserve (copier : Copier) (item : Item) : Copier :=
  match copier.position? item with
  | some _ => copier
  | none =>
    match copier.source.entity? item.id with
    | none => copier
    | some entity => {
        source := copier.source
        target := copier.target.push item.arena entity.placeholder
        memo := (item, copier.target.size item.arena) :: copier.memo }

/-- Puts contents, with their ids replaced, into the copy of an item. -/
def fill (copier : Copier) (item : Item) (entity : Entity item.arena) : Copier :=
  { copier with
    target := copier.target.setEntity (copier.renamed item.id) (entity.rename copier.renamed) }

/-- Puts the contents that an item has in the source into its copy. -/
def fillFromSource (copier : Copier) (item : Item) : Copier :=
  match copier.source.entity? item.id with
  | none => copier
  | some entity => copier.fill item entity

/-- The items without a copy that are reached from some items, in the order of discovery. -/
def missing (copier : Copier) (items : List Item) : List Item :=
  (Search.visitAll copier.source.links (copier.source.itemCount + 1) { entered := copier.copied }
    items).discovered.reverse

/-- Copies some items and everything that they refer to. -/
def bring (copier : Copier) (items : List Item) : Copier :=
  let found := copier.missing items
  found.foldl fillFromSource (found.foldl reserve copier)

/-- Copies an item and everything that it refers to. -/
def copy {arena : Arena} (copier : Copier) (id : Id arena) : Copier × Id arena :=
  let copier := copier.bring [id.item]
  (copier, copier.renamed id)

/-- Copies what a reference refers to, and gives the reference to the copy. -/
def copyRef (copier : Copier) (type : TypeRef) : Copier × TypeRef :=
  let copier := copier.bring (type.id?.map Id.item).toList
  (copier, type.rename copier.renamed)

/-- Copies the owner of a type, and gives the copy as an owner. -/
def copyOwner (copier : Copier) (owner : Owner) : Copier × Owner :=
  let copier := copier.bring owner.item?.toList
  (copier, owner.rename copier.renamed)

/-- Copies what a function refers to, and gives the function with the ids of the copies. -/
def copyFunction (copier : Copier) (function : Function) : Copier × Function :=
  let copier := copier.bring (function.mentionedIds.map Id.item)
  (copier, function.rename copier.renamed)

/-- Copies what an import or export and its key refer to, and gives both with the ids of the
copies. -/
def copyEntry (copier : Copier) (entry : WorldKey × WorldItem) :
    Copier × (WorldKey × WorldItem) :=
  let copier := copier.bring (WorldItem.entryLinks entry)
  (copier, (entry.1.rename copier.renamed, entry.2.rename copier.renamed))

/-- Makes room for the copy of an item. -/
def reserveId {arena : Arena} (copier : Copier) (id : Id arena) : Copier × Id arena :=
  let copier := copier.reserve id.item
  (copier, copier.renamed id)

/-- Fills the copy of an item with given contents and copies everything that they refer to. -/
def populate (copier : Copier) (item : Item) (entity : Entity item.arena) : Copier :=
  ((copier.reserve item).bring entity.links).fill item entity

end Copier

namespace Graph

/-- All items of a graph: packages, worlds, interfaces and types, in this order. -/
def items (graph : Graph) : List Item :=
  [Arena.package, .world, .interface, .type].flatMap fun arena =>
    (graph.ids arena).map Id.item

/-- The graph with its packages entered by name, a later package taking the place of an earlier one
of its name. -/
def withPackageNames (graph : Graph) : Graph :=
  { graph with
    packageNames := .ofList <| graph.packages.toList.zipIdx.map fun (package, index) =>
      (package.name, ⟨index⟩) }

/-- Fills the copy of an item that has been given contents. -/
def populateFrom (contents : (item : Item) → Option (Entity item.arena)) (copier : Copier)
    (item : Item) : Copier :=
  match contents item with
  | none => copier
  | some entity => copier.populate item entity

/-- A copy of some items of a graph, in the order given and with the contents given. -/
def transfer (graph : Graph) (items : List Item)
    (contents : (item : Item) → Option (Entity item.arena)) : Copier :=
  let copier : Copier := items.foldl Copier.reserve { source := graph }
  items.foldl (populateFrom contents) copier

/-- A copy of the whole graph, and where the copies of its items are. -/
def deepClone (graph : Graph) : Graph × Copier :=
  let copier := graph.transfer graph.items fun item => graph.entity? item.id
  (copier.target.withPackageNames, copier)

end Graph

end WitGraph
