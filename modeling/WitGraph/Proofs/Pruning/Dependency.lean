/-
**Pruning neither invents nor loses dependencies.**

Between a graph of copies and its source there is a simulation in both directions:

* what a copy contains is what its original contains, renamed and perhaps less of it
  (`IsCopyOf.contains_origin`), so whatever depends on something in the copy does so in the source;
* interfaces, types and functions are copied whole (`IsCopyOf.contains_via`), and they contain nothing
  else, so what depends on something in the source still does so if it is one of them;
* links back are neither renamed apart nor left out (`IsCopyOf.backLinks_origin`).

Worlds and packages lose entries, so for them only the first direction holds.
-/

import WitGraph.Proofs.Nodes
import WitGraph.Proofs.Pruning.Abi

namespace WitGraph

/-- The node with its ids renamed. -/
def Node.rename (via : Renaming) : Node → Node
  | .item original => .item (original.rename via)
  | .function place => .function (place.rename via)

variable {via : Renaming}

/-! ### What copies contain -/

theorem WorldItem.node_rename (id : WorldId) (side : Side) (entry : WorldKey × WorldItem) :
    (renameEntry via entry).2.node (via id) side (renameEntry via entry).1
      = (entry.2.node id side entry.1).rename via := by
  obtain ⟨key, item⟩ := entry
  cases item <;> rfl

theorem Interface.nodes_rename (id : InterfaceId) (interface : Interface) :
    (interface.rename via).nodes (via id) = (interface.nodes id).map (Node.rename via) := by
  rw [nodes, nodes, List.map_append, List.map_map, List.map_map, rename, OrderedMap.values_mapValues,
    List.map_map]
  simp only [OrderedMap.keys, OrderedMap.mapValues, List.map_map]
  rfl

theorem TypeDef.nodes_rename (type : TypeDef) :
    (type.rename via).nodes = type.nodes.map (Node.rename via) := by
  rw [nodes, nodes, rename, Kind.directIds_rename, List.map_map, List.map_map]
  rfl

theorem OrderedMap.nodes_subset {arena : Arena} {copy original : OrderedMap String (Id arena)}
    (fewer : copy.entries.Sublist (original.mapValues via).entries) :
    copy.values.map (fun id => Node.item id.item)
      ⊆ (original.values.map fun id => Node.item id.item).map (Node.rename via) := by
  have values : copy.values ⊆ original.values.map via :=
    OrderedMap.values_mapValues original via ▸ (fewer.map Prod.snd).subset
  intro node member
  obtain ⟨id, isValue, rfl⟩ := List.mem_map.mp member
  obtain ⟨before, isBefore, rfl⟩ := List.mem_map.mp (values isValue)
  exact List.mem_map.mpr ⟨.item before.item, List.mem_map_of_mem isBefore, rfl⟩

/-- **A copy contains copies of what its original contains**, perhaps not all of them. -/
theorem Entity.IsCopy.nodes_subset {arena : Arena} {copy original : Entity arena}
    (isCopy : copy.IsCopy via original) (id : Id arena) :
    copy.nodes (via id) ⊆ (original.nodes id).map (Node.rename via) := by
  intro node member
  cases arena with
  | package =>
    obtain ⟨interfaces, worlds, -⟩ := isCopy
    rcases List.mem_append.mp member with inInterfaces | inWorlds
    · obtain ⟨before, isBefore, rfl⟩ :=
        List.mem_map.mp (OrderedMap.nodes_subset interfaces inInterfaces)
      exact List.mem_map_of_mem (List.mem_append_left _ isBefore)
    · obtain ⟨before, isBefore, rfl⟩ := List.mem_map.mp (OrderedMap.nodes_subset worlds inWorlds)
      exact List.mem_map_of_mem (List.mem_append_right _ isBefore)
  | world =>
    obtain ⟨side, entry, listed, rfl⟩ := World.mem_nodes_iff.mp member
    obtain ⟨before, isBefore, rfl⟩ := List.mem_map.mp ((isCopy.sublist_side side).subset listed)
    rw [WorldItem.node_rename]
    exact List.mem_map_of_mem (World.mem_nodes_iff.mpr ⟨side, before, isBefore, rfl⟩)
  | interface =>
    cases (isCopy : copy = Interface.rename via original)
    exact Interface.nodes_rename id original ▸ member
  | type =>
    cases (isCopy : copy = TypeDef.rename via original)
    exact TypeDef.nodes_rename original ▸ member

/-- Interfaces and types are copied with all that they contain. -/
theorem Entity.IsCopy.nodes_eq {arena : Arena} (part : arena = .interface ∨ arena = .type)
    {copy original : Entity arena} (isCopy : copy.IsCopy via original) (id : Id arena) :
    copy.nodes (via id) = (original.nodes id).map (Node.rename via) := by
  rcases part with rfl | rfl
  · cases (isCopy : copy = Interface.rename via original)
    exact Interface.nodes_rename id original
  · cases (isCopy : copy = TypeDef.rename via original)
    exact TypeDef.nodes_rename original

namespace Graph.IsCopyOf

variable {copy source : Graph} {origin : Renaming}

/-- The original of an id that a copy refers to. -/
theorem map_item_origin (isCopy : copy.IsCopyOf source origin via) {arena : Arena}
    {id : Option (Id arena)}
    (held : ∀ link ∈ ((id.map fun id => via id).map Id.item).toList, copy.Holds link) :
    id.toList.map Id.item
      = ((id.map fun id => via id).toList.map Id.item).map (Item.rename origin) := by
  cases id with
  | none => rfl
  | some id =>
    have back := isCopy.origin_via id (held (via id).item (List.mem_singleton_self _))
    exact congrArg (fun id : Id arena => [id.item]) back.symm

variable (isCopy : copy.IsCopyOf source origin via) (closed : copy.IsClosed)
include isCopy closed

/-! ### Nodes and their originals -/

/-- A node of the copy leads back to the node of which it is the copy. -/
theorem rename_origin_via {node : Node} (present : copy.HasNode (node.rename via)) :
    (node.rename via).rename origin = node := by
  cases node with
  | item item => exact congrArg (fun id => Node.item id.item) (isCopy.origin_via item.id present)
  | function place =>
    obtain ⟨function, found⟩ := present
    cases place with
    | interface id name =>
      have held := holds_of_contains (contains_container found)
      exact congrArg (fun id => Node.function (.interface id name)) (isCopy.origin_via id held)
    | world id side key =>
      have held := holds_of_contains (contains_container found)
      obtain ⟨world, isWorld, listed⟩ := function?_world_iff.mp found
      have sameKey := isCopy.rename_key_origin closed isWorld listed
      show Node.function (.world (origin (via id)) side ((key.rename via).rename origin)) = _
      rw [isCopy.origin_via id held, sameKey]

/-- The original of a node of the copy has this node as its copy. -/
theorem rename_via_origin {node : Node} (present : copy.HasNode node) :
    (node.rename origin).rename via = node := by
  cases node with
  | item item => exact congrArg (fun id => Node.item id.item) (isCopy.via_origin item.id present)
  | function place =>
    obtain ⟨function, found⟩ := present
    cases place with
    | interface id name =>
      have held := holds_of_contains (contains_container found)
      exact congrArg (fun id => Node.function (.interface id name)) (isCopy.via_origin id held)
    | world id side key =>
      have held := holds_of_contains (contains_container found)
      obtain ⟨world, isWorld, listed⟩ := function?_world_iff.mp found
      obtain ⟨original, isOriginal, copied⟩ := isCopy.copied id world isWorld
      obtain ⟨⟨before, item⟩, -, isEntry⟩ :=
        List.mem_map.mp ((Entity.IsCopy.sublist_side copied side).subset listed)
      obtain ⟨rfl, -⟩ : before.rename via = key ∧ _ := Prod.mk.inj isEntry
      have sameKey := isCopy.rename_key_origin closed isWorld listed
      show Node.function (.world (via (origin id)) side
        (((before.rename via).rename origin).rename via)) = _
      rw [isCopy.via_origin id held, sameKey]

/-- The original of a node of the copy is a node of the source. -/
theorem hasNode_origin {node : Node} (present : copy.HasNode node) :
    source.HasNode (node.rename origin) := by
  cases node with
  | item item => exact isCopy.holds_origin item.id present
  | function place =>
    obtain ⟨function, found⟩ := present
    exact ⟨_, isCopy.function?_origin closed found⟩

/-! ### Steps in both directions -/

/-- **What a node of the copy contains, its original contains.** -/
theorem contains_origin {node inner : Node} (step : copy.Contains node inner) :
    source.Contains (node.rename origin) (inner.rename origin) := by
  have present := closed.hasNode_of_contains step
  cases node with
  | item item =>
    obtain ⟨entity, found, listed⟩ :=
      contains_item_iff.mp (show copy.Contains (.item item.id.item) inner from step)
    obtain ⟨original, isOriginal, copied⟩ := isCopy.copied item.id entity found
    have back := isCopy.via_origin item.id ((copy.holds_iff_entity? item).mpr ⟨entity, found⟩)
    obtain ⟨before, isBefore, rfl⟩ := List.mem_map.mp (copied.nodes_subset _ (back.symm ▸ listed))
    rw [isCopy.rename_origin_via closed present]
    exact contains_item_iff.mpr ⟨original, isOriginal, isBefore⟩
  | function place =>
    obtain ⟨function, found, type, mentioned, rfl⟩ := contains_function_iff.mp step
    refine contains_function_iff.mpr ⟨_, isCopy.function?_origin closed found, origin type, ?_, rfl⟩
    rw [Function.mentionedIds_rename]
    exact List.mem_map_of_mem mentioned

/-- What the original of an item contains, the item contains if it has been copied whole. -/
theorem contains_via_item {arena : Arena} {id : Id arena} {entity original : Entity arena}
    (found : copy.entity? id = some entity) (isOriginal : source.entity? (origin id) = some original)
    (whole : entity.nodes id = (original.nodes (origin id)).map (Node.rename via)) {next : Node}
    (step : source.Contains (.item (origin id).item) next) :
    ∃ inner, copy.Contains (.item id.item) inner ∧ inner.rename origin = next := by
  obtain ⟨other, isOther, listed⟩ := contains_item_iff.mp step
  cases isOriginal.symm.trans isOther
  have contained : copy.Contains (.item id.item) (next.rename via) :=
    contains_item_iff.mpr ⟨entity, found, whole ▸ List.mem_map_of_mem listed⟩
  exact ⟨_, contained, isCopy.rename_origin_via closed (closed.hasNode_of_contains contained)⟩

/-- **What the original of a part contains, the part contains.** -/
theorem contains_via {node next : Node} (part : node.IsPart) (present : copy.HasNode node)
    (step : source.Contains (node.rename origin) next) :
    ∃ inner, copy.Contains node inner ∧ inner.rename origin = next := by
  cases node with
  | item item =>
    obtain ⟨entity, found⟩ := (copy.holds_iff_entity? item).mp present
    obtain ⟨original, isOriginal, copied⟩ := isCopy.copied item.id entity found
    have whole := copied.nodes_eq part (origin item.id)
    rw [isCopy.via_origin item.id present] at whole
    exact isCopy.contains_via_item closed found isOriginal whole step
  | function place =>
    obtain ⟨function, found⟩ := present
    obtain ⟨other, isOther, type, mentioned, rfl⟩ := contains_function_iff.mp step
    cases (isCopy.function?_origin closed found).symm.trans isOther
    rw [Function.mentionedIds_rename] at mentioned
    obtain ⟨before, isBefore, rfl⟩ := List.mem_map.mp mentioned
    exact ⟨.item before.item, contains_function_iff.mpr ⟨function, found, before, isBefore, rfl⟩, rfl⟩

/-! ### Paths in both directions -/

theorem reaches_origin {node reached : Node} (path : copy.Reaches node reached) :
    source.Reaches (node.rename origin) (reached.rename origin) := by
  induction path with
  | refl => exact .refl
  | tail _ step ih => exact ih.tail (isCopy.contains_origin closed step)

/-- A path from the original of a part is the path of originals of a path from the part. -/
theorem reaches_via {node next : Node} (part : node.IsPart) (present : copy.HasNode node)
    (path : source.Reaches (node.rename origin) next) :
    ∃ reached, copy.Reaches node reached ∧ reached.rename origin = next := by
  induction path with
  | refl => exact ⟨node, .refl, rfl⟩
  | tail _ step ih =>
    obtain ⟨reached, path, rfl⟩ := ih
    obtain ⟨inner, contained, same⟩ := isCopy.contains_via closed (isPart_of_reaches part path)
      (closed.hasNode_of_reaches present path) step
    exact ⟨inner, path.tail contained, same⟩

/-! ### Links back -/

/-- The package of the original of a world is the original of its package. -/
theorem worldPackage_origin {id : WorldId} (held : copy.Holds id.item) :
    ((source.world? (origin id)).bind World.package).toList.map Id.item
      = (((copy.world? id).bind World.package).toList.map Id.item).map (Item.rename origin) := by
  obtain ⟨world, found⟩ := (copy.holds_iff_entity? id.item).mp held
  obtain ⟨original, isOriginal, -, -, same⟩ := isCopy.copied id world found
  have isWorld : copy.world? id = some world := found
  have isSource : source.world? (origin id) = some original := isOriginal
  have package : World.package world = (World.package original).map fun id => via id :=
    congrArg World.package same
  rw [isWorld, isSource]
  show (World.package original).toList.map Id.item = ((World.package world).toList.map Id.item).map _
  rw [package]
  refine isCopy.map_item_origin fun link member => ?_
  rw [← package] at member
  exact closed.holds_link found (List.mem_append_right _ member)

/-- The package of the original of an interface is the original of its package. -/
theorem interfacePackage_origin {id : InterfaceId} (held : copy.Holds id.item) :
    ((source.interface? (origin id)).bind Interface.package).toList.map Id.item
      = (((copy.interface? id).bind Interface.package).toList.map Id.item).map
          (Item.rename origin) := by
  obtain ⟨interface, found⟩ := (copy.holds_iff_entity? id.item).mp held
  obtain ⟨original, isOriginal, same⟩ := isCopy.copied id interface found
  have isInterface : copy.interface? id = some interface := found
  have isSource : source.interface? (origin id) = some original := isOriginal
  have package : Interface.package interface = (Interface.package original).map fun id => via id :=
    congrArg Interface.package same
  rw [isInterface, isSource]
  show (Interface.package original).toList.map Id.item
    = ((Interface.package interface).toList.map Id.item).map _
  rw [package]
  refine isCopy.map_item_origin fun link member => ?_
  rw [← package] at member
  exact closed.holds_link found (List.mem_append_right _ member)

/-- **The links back of an original are the originals of the links back.** -/
theorem backLinks_origin {item : Item} (held : copy.Holds item) :
    source.backLinks (item.rename origin) = (copy.backLinks item).map (Item.rename origin) := by
  obtain ⟨arena, index⟩ := item
  cases arena with
  | package => rfl
  | world => exact isCopy.worldPackage_origin closed held
  | interface => exact isCopy.interfacePackage_origin closed held
  | type =>
    obtain ⟨type, found⟩ := (copy.holds_iff_entity? ⟨.type, index⟩).mp held
    obtain ⟨original, isOriginal, same⟩ := isCopy.copied (⟨index⟩ : TypeId) type found
    cases (same : type = TypeDef.rename via original)
    have ofSource : source.backLinks (origin (⟨index⟩ : TypeId)).item = _ := backLinks_type isOriginal
    have ofCopy : copy.backLinks (Id.item (⟨index⟩ : TypeId)) = _ := backLinks_type found
    have owns {owner : Item} (isOwner : (Owner.rename via original.owner).item? = some owner) :
        copy.Holds owner :=
      closed.holds_link found (List.mem_append_left _ (Option.mem_toList.mpr isOwner))
    show source.backLinks (origin (⟨index⟩ : TypeId)).item
      = (copy.backLinks (Id.item (⟨index⟩ : TypeId))).map _
    rw [ofSource, ofCopy, List.map_append]
    show original.owner.item?.toList ++ (source.ownerPackage? original.owner).toList.map Id.item
      = (original.owner.rename via).item?.toList.map _
        ++ ((copy.ownerPackage? (original.owner.rename via)).toList.map Id.item).map _
    cases owner : original.owner with
    | none => rfl
    | world id =>
      rw [owner] at owns
      have back := isCopy.origin_via id (owns rfl)
      have package := isCopy.worldPackage_origin closed (owns rfl)
      rw [back] at package
      exact congrArg₂ List.append (congrArg (fun id : WorldId => [id.item]) back.symm) package
    | interface id =>
      rw [owner] at owns
      have back := isCopy.origin_via id (owns rfl)
      have package := isCopy.interfacePackage_origin closed (owns rfl)
      rw [back] at package
      exact congrArg₂ List.append (congrArg (fun id : InterfaceId => [id.item]) back.symm) package

/-! ### Dependencies -/

/-- Distinct nodes of the copy have distinct originals. -/
theorem eq_of_rename_origin {first second : Node} (isFirst : copy.HasNode first)
    (isSecond : copy.HasNode second) (same : first.rename origin = second.rename origin) :
    first = second := by
  rw [← isCopy.rename_via_origin closed isFirst, same, isCopy.rename_via_origin closed isSecond]

/-- What depends on something in the copy depends on it in the source. -/
theorem dependsOn_origin {node dependency : Node} (present : copy.HasNode node)
    (isDependency : copy.HasNode dependency) (depends : copy.dependsOn node dependency = true) :
    source.dependsOn (node.rename origin) (dependency.rename origin) = true := by
  rw [dependsOn_iff _ _ (mem_nodes_iff.mpr isDependency)] at depends
  rw [dependsOn_iff _ _ (mem_nodes_iff.mpr (isCopy.hasNode_origin closed isDependency))]
  obtain ⟨reached, path, either⟩ := depends
  refine ⟨_, isCopy.reaches_origin closed path, ?_⟩
  rcases either with rfl | linked
  · exact Or.inl rfl
  · have isReached := closed.hasNode_of_reaches present path
    obtain ⟨item, link, rfl, rfl⟩ := linked.exists_items
    refine Or.inr (linkedBack_of_mem_backLinks ?_)
    rw [isCopy.backLinks_origin closed isReached]
    exact List.mem_map_of_mem (mem_backLinks_of_linkedBack linked)

/-- What depends on something in the source depends on it in the copy, if the paths from it are paths
of originals. -/
theorem dependsOn_via {node dependency : Node} (present : copy.HasNode node)
    (isDependency : copy.HasNode dependency)
    (follows : ∀ next, source.Reaches (node.rename origin) next →
      ∃ reached, copy.Reaches node reached ∧ reached.rename origin = next)
    (depends : source.dependsOn (node.rename origin) (dependency.rename origin) = true) :
    copy.dependsOn node dependency = true := by
  rw [dependsOn_iff _ _ (mem_nodes_iff.mpr (isCopy.hasNode_origin closed isDependency))] at depends
  rw [dependsOn_iff _ _ (mem_nodes_iff.mpr isDependency)]
  obtain ⟨next, sourcePath, either⟩ := depends
  obtain ⟨reached, path, rfl⟩ := follows next sourcePath
  have isReached := closed.hasNode_of_reaches present path
  refine ⟨reached, path, ?_⟩
  rcases either with same | linked
  · exact Or.inl (isCopy.eq_of_rename_origin closed isReached isDependency same)
  · obtain ⟨_, _, isItem, isLink⟩ := linked.exists_items
    cases reached with
    | function place => cases isItem
    | item item =>
      cases dependency with
      | function place => cases isLink
      | item link =>
        have member := mem_backLinks_of_linkedBack linked
        rw [isCopy.backLinks_origin closed isReached] at member
        obtain ⟨other, inBackLinks, same⟩ := List.mem_map.mp member
        have isOther : copy.HasNode (.item other) := closed.holds_of_mem_backLinks inBackLinks
        cases isCopy.eq_of_rename_origin closed isOther isDependency (congrArg Node.item same)
        exact Or.inr (linkedBack_of_mem_backLinks inBackLinks)

end Graph.IsCopyOf

namespace Graph

/-- The nodes of a graph of copies depend on each other as their originals do; of what worlds and
packages depend on, some may be missing. -/
structure KeepsDependencies (copy source : Graph) (origin : Renaming) : Prop where
  present : ∀ node ∈ copy.nodes, node.rename origin ∈ source.nodes
  sound : ∀ node ∈ copy.nodes, ∀ dependency ∈ copy.nodes,
    copy.dependsOn node dependency = true →
      source.dependsOn (node.rename origin) (dependency.rename origin) = true
  complete : ∀ node ∈ copy.nodes, node.IsPart → ∀ dependency ∈ copy.nodes,
    source.dependsOn (node.rename origin) (dependency.rename origin) = true →
      copy.dependsOn node dependency = true

theorem IsCopyOf.keepsDependencies {copy source : Graph} {origin : Renaming}
    (isCopy : copy.IsCopyOf source origin via) (closed : copy.IsClosed) :
    copy.KeepsDependencies source origin where
  present _ member := mem_nodes_iff.mpr (isCopy.hasNode_origin closed (mem_nodes_iff.mp member))
  sound _ member _ isDependency :=
    isCopy.dependsOn_origin closed (mem_nodes_iff.mp member) (mem_nodes_iff.mp isDependency)
  complete _ member part _ isDependency :=
    isCopy.dependsOn_via closed (mem_nodes_iff.mp member) (mem_nodes_iff.mp isDependency)
      fun _ => isCopy.reaches_via closed part (mem_nodes_iff.mp member)

/-- **Pruning neither invents nor loses dependencies**: whatever the target, the pruned graph is a graph
of copies, and with any map that leads from its items to their originals it keeps the dependencies. -/
theorem pruneTo_keepsDependencies {graph : Graph} (isRead : graph.IsRead) (target : Node) :
    (∃ origin via : Renaming, (graph.pruneTo target).IsCopyOf graph origin via)
      ∧ ∀ origin via : Renaming, (graph.pruneTo target).IsCopyOf graph origin via →
        (graph.pruneTo target).KeepsDependencies graph origin := by
  have linked := wellLinked_of_isRead isRead
  exact ⟨linked.exists_isCopyOf target, fun origin via isCopy =>
    isCopy.keepsDependencies (linked.isClosed_pruneTo target)⟩

/-- The dependencies in the part of the document's graph that is related to its method. -/
theorem pruneTo_keepsDependencies_method :
    let pruned := Sample.graph.pruneTo (.function (.interface ⟨0⟩ "[method]blob.read"))
    Sample.graph.IsRead ∧ (∃ origin via : Renaming, pruned.IsCopyOf Sample.graph origin via)
      ∧ ∀ origin via : Renaming, pruned.IsCopyOf Sample.graph origin via →
        pruned.KeepsDependencies Sample.graph origin :=
  have isRead : Sample.graph.IsRead := ⟨_, Sample.accepted⟩
  ⟨isRead, pruneTo_keepsDependencies isRead _⟩

end Graph

end WitGraph
