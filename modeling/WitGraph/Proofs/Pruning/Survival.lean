/-
**What survives a pruning.**

`Survival` says what of the target, and of what the target depends on, has a copy in the pruned graph.

* All interfaces that the target depends on have copies, for the pruning begins with them; and so has the
  target itself if it is a package, a world, an interface or a function of a world
  (`WellLinked.hasCopy_target`).
* Functions have no copies of their own. A function of an interface has a copy if its interface has one
  (`WellLinked.hasCopy_function_iff`).
* Nor have types. A type has a copy if an interface, a function of a world or a type that a world lists
  brings it (`BringsTypes`, `WellLinked.hasCopy_type_iff`).
* Interfaces, types and functions are copied with all that they depend on
  (`WellLinked.hasCopy_of_dependsOn`). Packages and worlds lose entries, but not if they are the target
  (`PackagesAgree.hasCopy_of_target`).

So a function of an interface that it does not depend on is left out when the graph is pruned to it, and
with it the types that only such functions mention (`exists_target_lost`).
-/

import WitGraph.Proofs.Pruning.Provenance
import WitGraph.Proofs.Pruning.WholeWorld

namespace WitGraph

/-! ### Renamed parts -/

theorem Node.isPart_rename {via : Renaming} {node : Node} : (node.rename via).IsPart ↔ node.IsPart := by
  cases node <;> rfl

/-- A renamed package lists the renamed interfaces and worlds. -/
theorem Package.nodes_rename (via : Renaming) (package : Package) :
    (package.rename via).nodes = package.nodes.map (Node.rename via) := by
  rw [nodes, nodes, List.map_append, List.map_map, List.map_map, rename, OrderedMap.values_mapValues,
    OrderedMap.values_mapValues, List.map_map, List.map_map]
  rfl

namespace Graph

section

variable {graph : Graph} {target : Node}

/-- The packages agree with the links back: what a package lists is linked back to it. -/
structure PackagesAgree (graph : Graph) : Prop where
  interfaces : ∀ id package, graph.package? id = some package →
    ∀ interface ∈ package.interfaces.values,
      (graph.interface? interface).bind Interface.package = some id
  worlds : ∀ id package, graph.package? id = some package → ∀ world ∈ package.worlds.values,
    (graph.world? world).bind World.package = some id

/-- The node has a copy in the graph that is pruned to the target. -/
def HasCopy (graph : Graph) (target node : Node) : Prop :=
  ∃ copy ∈ (graph.pruneTo target).nodes, copy.rename (graph.originalId target) = node

/-! ### Copies -/

/-- A node has a copy if it stands in the pruned graph, renamed. -/
theorem WellLinked.hasCopy_iff (linked : graph.WellLinked) {node : Node} :
    graph.HasCopy target node ↔ (graph.pruneTo target).HasNode (node.rename (graph.copyId target)) := by
  have isCopy := linked.isCopyOf_pruneTo target
  have closed := linked.isClosed_pruneTo target
  constructor
  · rintro ⟨copy, member, rfl⟩
    have present := mem_nodes_iff.mp member
    rwa [isCopy.rename_via_origin closed present]
  · exact fun present => ⟨_, mem_nodes_iff.mpr present, isCopy.rename_origin_via closed present⟩

/-- An item has a copy if the copier has made one. -/
theorem WellLinked.hasCopy_item_iff (linked : graph.WellLinked) {item : Item} :
    graph.HasCopy target (.item item) ↔ (Pruning.start graph target).copier.Copied item := by
  have tidy := ((Pruning.start graph target).transfers_copier linked.closed).tidy
  constructor
  · rintro ⟨copy, member, same⟩
    cases copy with
    | function place => cases same
    | item copy =>
      have held : (graph.pruneTo target).Holds copy := mem_nodes_iff.mp member
      exact Node.item.inj same ▸ tidy.copied_origin (holds_withPackageNames.mp held)
  · intro copied
    have place : graph.copyId target item.id = (Pruning.start graph target).copier.renamed item.id :=
      tidy.place_eq_renamed (show (Pruning.start graph target).copier.Copied item.id.item from copied)
    have held : (graph.pruneTo target).Holds (graph.copyId target item.id).item := by
      rw [place]
      exact holds_withPackageNames.mpr (tidy.holds_renamed copied)
    exact linked.hasCopy_iff.mpr held

theorem WellLinked.hasNode_of_hasCopy (linked : graph.WellLinked) {node : Node}
    (hasCopy : graph.HasCopy target node) : graph.HasNode node := by
  obtain ⟨copy, member, rfl⟩ := hasCopy
  exact (linked.isCopyOf_pruneTo target).hasNode_origin (linked.isClosed_pruneTo target)
    (mem_nodes_iff.mp member)

theorem WellLinked.hasCopy_of_isKept (linked : graph.WellLinked) {item : Item}
    (held : graph.Holds item) (kept : graph.isKept target item = true) :
    graph.HasCopy target (.item item) :=
  linked.hasCopy_iff.mpr (holds_copyId linked.closed (show graph.Holds item.id.item from held) kept)

theorem WellLinked.hasCopy_of_isFirst (linked : graph.WellLinked) {item : Item}
    (held : graph.Holds item) (first : (Pruning.start graph target).isFirst item = true) :
    graph.HasCopy target (.item item) :=
  linked.hasCopy_of_isKept held (isKept_of_isFirst held first)

/-- What a node depends on has copies if the paths from the node are paths of originals. -/
theorem WellLinked.hasCopy_of_follows (linked : graph.WellLinked) {node dependency : Node}
    (hasCopy : graph.HasCopy target node)
    (follows : ∀ next, graph.Reaches node next →
      ∃ reached, (graph.pruneTo target).Reaches (node.rename (graph.copyId target)) reached
        ∧ reached.rename (graph.originalId target) = next)
    (isDependency : graph.HasNode dependency) (depends : graph.dependsOn node dependency = true) :
    graph.HasCopy target dependency := by
  have isCopy := linked.isCopyOf_pruneTo target
  have closed := linked.isClosed_pruneTo target
  obtain ⟨next, path, either⟩ := (dependsOn_iff _ _ (mem_nodes_iff.mpr isDependency)).mp depends
  obtain ⟨reached, pathInside, rfl⟩ := follows next path
  have present := closed.hasNode_of_reaches (linked.hasCopy_iff.mp hasCopy) pathInside
  rcases either with rfl | linkedBack
  · exact ⟨reached, mem_nodes_iff.mpr present, rfl⟩
  · obtain ⟨_, link, isItem, rfl⟩ := linkedBack.exists_items
    cases reached with
    | function place => cases isItem
    | item item =>
      have member := mem_backLinks_of_linkedBack linkedBack
      rw [isCopy.backLinks_origin closed present] at member
      obtain ⟨other, inBackLinks, rfl⟩ := List.mem_map.mp member
      exact ⟨.item other, mem_nodes_iff.mpr (closed.holds_of_mem_backLinks inBackLinks), rfl⟩

/-- **An interface, type or function with a copy has copies of all that it depends on.** -/
theorem WellLinked.hasCopy_of_dependsOn (linked : graph.WellLinked) {node dependency : Node}
    (hasCopy : graph.HasCopy target node) (part : node.IsPart)
    (isDependency : graph.HasNode dependency) (depends : graph.dependsOn node dependency = true) :
    graph.HasCopy target dependency := by
  have isCopy := linked.isCopyOf_pruneTo target
  have closed := linked.isClosed_pruneTo target
  have present := linked.hasCopy_iff.mp hasCopy
  refine linked.hasCopy_of_follows hasCopy (fun next path => ?_) isDependency depends
  rw [← isCopy.rename_origin_via closed present] at path
  exact isCopy.reaches_via closed (Node.isPart_rename.mpr part) present path

/-! ### Functions and types -/

theorem WellLinked.hasCopy_function_iff (linked : graph.WellLinked) {id : InterfaceId} {name : String}
    (present : graph.HasNode (.function (.interface id name))) :
    graph.HasCopy target (.function (.interface id name)) ↔ graph.HasCopy target (.item id.item) := by
  constructor
  · intro hasCopy
    obtain ⟨function, found⟩ := linked.hasCopy_iff.mp hasCopy
    exact linked.hasCopy_iff.mpr (holds_of_contains (contains_container found))
  · intro hasCopy
    obtain ⟨function, found⟩ := present
    have depends : graph.dependsOn (.item id.item) (.function (.interface id name)) = true :=
      dependsOn_of_reaches ⟨function, found⟩ (.single (contains_container found))
    exact linked.hasCopy_of_dependsOn hasCopy (Or.inl rfl) ⟨function, found⟩ depends

/-- A world with a copy has copies of all types that it lists. -/
theorem WellLinked.hasCopy_worldType (linked : graph.WellLinked) {id : WorldId} {world : World}
    {side : Side} {key : WorldKey} {type : TypeId} (hasCopy : graph.HasCopy target (.item id.item))
    (found : graph.world? id = some world) (listed : (key, .type type) ∈ (world.side side).entries) :
    graph.HasCopy target (.item type.item) := by
  have isLink : type.item ∈ WorldItem.entryLinks (key, .type type) :=
    List.mem_append_right _ (List.mem_singleton_self _)
  have transfers := (Pruning.start graph target).transfers_copier linked.closed
  -- the world is pruned if it is kept and copied whole if not, so types are never left out
  have step : Copier.FinalLink graph (Pruning.start graph target).keptItems
      ((Pruning.start graph target).contents? (graph.isKept target)) id.item type.item := by
    by_cases kept : id.item ∈ (Pruning.start graph target).keptItems
    · refine Or.inl ⟨kept, _, Option.map_eq_some_iff.mpr ⟨world, found, rfl⟩, ?_⟩
      have left := List.mem_filter.mpr ⟨listed, show graph.leaves target id side _ = true from rfl⟩
      rw [← entries_side_pruneWorld] at left
      exact mem_links_of_mem_entryLinks left isLink
    · refine Or.inr ⟨kept, ?_⟩
      rw [links_of_entity? (show graph.entity? id.item.id = some world from found)]
      exact mem_links_of_mem_entryLinks listed isLink
  exact linked.hasCopy_item_iff.mpr (transfers.mem_links (linked.hasCopy_item_iff.mp hasCopy) step).1

/-- What has a copy and brings copies of types: interfaces, functions of worlds, and types that worlds
list. -/
inductive BringsTypes (graph : Graph) (target : Node) : Node → Prop
  | interface {id : InterfaceId} (hasCopy : graph.HasCopy target (.item id.item)) :
      BringsTypes graph target (.item id.item)
  | worldFunction {id : WorldId} {side : Side} {key : WorldKey}
      (hasCopy : graph.HasCopy target (.function (.world id side key))) :
      BringsTypes graph target (.function (.world id side key))
  | worldType {id : WorldId} {world : World} {side : Side} {key : WorldKey} {type : TypeId}
      (hasCopy : graph.HasCopy target (.item id.item)) (found : graph.world? id = some world)
      (listed : (key, .type type) ∈ (world.side side).entries) :
      BringsTypes graph target (.item type.item)

theorem BringsTypes.isPart {node : Node} (brings : graph.BringsTypes target node) : node.IsPart := by
  cases brings with
  | interface => exact Or.inl rfl
  | worldFunction => trivial
  | worldType => exact Or.inr rfl

theorem BringsTypes.hasCopy (linked : graph.WellLinked) {node : Node}
    (brings : graph.BringsTypes target node) : graph.HasCopy target node := by
  cases brings with
  | interface hasCopy => exact hasCopy
  | worldFunction hasCopy => exact hasCopy
  | worldType hasCopy found listed => exact linked.hasCopy_worldType hasCopy found listed

/-- The original of an entry of a copied world brings copies of types. -/
theorem WellLinked.bringsTypes_entry (linked : graph.WellLinked) {id : WorldId} {world : World}
    {side : Side} {entry : WorldKey × WorldItem} (found : (graph.pruneTo target).world? id = some world)
    (listed : entry ∈ (world.side side).entries) :
    graph.BringsTypes target ((entry.2.node id side entry.1).rename (graph.originalId target)) := by
  have isCopy := linked.isCopyOf_pruneTo target
  have inside : (graph.pruneTo target).HasNode (entry.2.node id side entry.1) :=
    (linked.isClosed_pruneTo target).hasNode_of_contains (.worldEntry found listed)
  have hasCopy : graph.HasCopy target _ := ⟨_, mem_nodes_iff.mpr inside, rfl⟩
  obtain ⟨key, item⟩ := entry
  cases item with
  | interface other stability => exact .interface hasCopy
  | function function => exact .worldFunction hasCopy
  | type other =>
    obtain ⟨original, isOriginal, copied⟩ := isCopy.copied id world found
    obtain ⟨⟨before, item⟩, isBefore, same⟩ :=
      List.mem_map.mp ((Entity.IsCopy.sublist_side copied side).subset listed)
    obtain ⟨-, isType⟩ := Prod.mk.inj same
    cases item <;> cases isType
    have back := isCopy.origin_via _ (show (graph.pruneTo target).Holds _ from inside)
    have held : (graph.pruneTo target).HasNode (.item id.item) :=
      (holds_iff_entity? _ id.item).mpr ⟨world, found⟩
    have worldHasCopy : graph.HasCopy target (.item (graph.originalId target id).item) :=
      ⟨_, mem_nodes_iff.mpr held, rfl⟩
    exact .worldType worldHasCopy isOriginal (back.symm ▸ isBefore)

/-- **A type has a copy if something with a copy brings it, and only then.** -/
theorem WellLinked.hasCopy_type_iff (linked : graph.WellLinked) {id : TypeId} :
    graph.HasCopy target (.item id.item)
      ↔ ∃ node, graph.BringsTypes target node ∧ graph.Reaches node (.item id.item) := by
  have isCopy := linked.isCopyOf_pruneTo target
  have closed := linked.isClosed_pruneTo target
  constructor
  · intro hasCopy
    have held := linked.hasCopy_iff.mp hasCopy
    obtain ⟨container, isContainer, inside, path⟩ := linked.exists_container held
    -- the path from a world goes on from one of its entries
    have brought : ∃ node, graph.BringsTypes target (node.rename (graph.originalId target))
        ∧ (graph.pruneTo target).Reaches node ((Node.item id.item).rename (graph.copyId target)) := by
      obtain ⟨arena, index⟩ := container
      rcases isContainer with isWorld | isInterface
      · cases (isWorld : arena = .world)
        obtain ⟨⟨⟩⟩ | ⟨inner, step, rest⟩ := Relation.ReflTransGen.cases_head path
        obtain ⟨world, found, isNode⟩ := contains_item_iff.mp
          (show (graph.pruneTo target).Contains (.item (Id.item (⟨index⟩ : WorldId))) inner from step)
        obtain ⟨side, entry, listed, rfl⟩ := World.mem_nodes_iff.mp isNode
        exact ⟨_, linked.bringsTypes_entry found listed, rest⟩
      · cases (isInterface : arena = .interface)
        have present : (graph.pruneTo target).HasNode (.item ⟨.interface, index⟩) := inside
        exact ⟨.item ⟨.interface, index⟩, .interface ⟨_, mem_nodes_iff.mpr present, rfl⟩, path⟩
    obtain ⟨node, brings, path⟩ := brought
    have originals := isCopy.reaches_origin closed path
    rw [isCopy.rename_origin_via closed held] at originals
    exact ⟨_, brings, originals⟩
  · rintro ⟨node, brings, path⟩
    have hasCopy := brings.hasCopy linked
    have present : graph.HasNode (.item id.item) :=
      linked.closed.hasNode_of_reaches (linked.hasNode_of_hasCopy hasCopy) path
    exact linked.hasCopy_of_dependsOn hasCopy brings.isPart present (dependsOn_of_reaches present path)

/-! ### The target -/

/-- All that a package lists is kept when the graph is pruned to the package. -/
theorem PackagesAgree.isKept_link (agree : graph.PackagesAgree) (closed : graph.IsClosed)
    {id : PackageId} {package : Package} (found : graph.package? id = some package) {link : Item}
    (member : link ∈ package.links) : graph.isKept (.item id.item) link = true := by
  have held : graph.Holds link := closed.holds_link found member
  rcases List.mem_append.mp member with inInterfaces | inWorlds
  · obtain ⟨interface, isValue, rfl⟩ := List.mem_map.mp inInterfaces
    have step : graph.Contains (.item id.item) (.item interface.item) :=
      .packageInterface found isValue
    exact isKept_of_isFirst held (dependsOn_of_reaches held (.single step))
  · obtain ⟨world, isValue, rfl⟩ := List.mem_map.mp inWorlds
    -- the world depends on the package that it is linked back to
    obtain ⟨entity, isWorld, owned⟩ :=
      Option.bind_eq_some_iff.mp (agree.worlds id package found world isValue)
    have inside : graph.HasNode (.item id.item) := (holds_iff_entity? _ id.item).mpr ⟨package, found⟩
    have needs : graph.dependsOn (.item world.item) (.item id.item) = true :=
      (dependsOn_iff graph _ (mem_nodes_iff.mpr inside)).mpr
        ⟨_, .refl, Or.inr (.worldPackage isWorld owned)⟩
    exact isKept_of_isFirst held needs

/-- The paths from a kept world that the target reaches are paths of originals. -/
theorem WellLinked.follows_world (linked : graph.WellLinked) {id : WorldId}
    (inside : graph.Holds id.item) (kept : graph.isKept target id.item = true)
    (reached : graph.Reaches target (.item id.item)) {next : Node}
    (path : graph.Reaches (.item id.item) next) :
    ∃ copy, (graph.pruneTo target).Reaches (.item (graph.copyId target id).item) copy
      ∧ copy.rename (graph.originalId target) = next := by
  obtain ⟨world, found⟩ := (holds_iff_entity? _ id.item).mp inside
  obtain ⟨copied, isCopied, whole⟩ := linked.closed.exists_wholeCopy_of_reaches found kept reached
  exact (linked.isCopyOf_pruneTo target).reaches_via_world (linked.isClosed_pruneTo target) isCopied
    found whole path

/-- The paths from the package to which a graph is pruned are paths of originals. -/
theorem PackagesAgree.follows_package (agree : graph.PackagesAgree) (linked : graph.WellLinked)
    {id : PackageId} (inside : graph.Holds id.item) {next : Node}
    (path : graph.Reaches (.item id.item) next) :
    ∃ copy, (graph.pruneTo (.item id.item)).Reaches
        (.item (graph.copyId (.item id.item) id).item) copy
      ∧ copy.rename (graph.originalId (.item id.item)) = next := by
  have isCopy := linked.isCopyOf_pruneTo (.item id.item)
  have closed := linked.isClosed_pruneTo (.item id.item)
  have first : (Pruning.start graph (.item id.item)).isFirst id.item = true :=
    (Bool.or_eq_true _ _).mpr (Or.inr (dependsOn_self (show graph.HasNode (.item id.item) from inside)))
  obtain ⟨package, copied, found, isCopied, isPruned⟩ :=
    exists_pruned_copy linked.closed inside (isKept_of_isFirst inside first)
  -- nothing that the package lists is left out
  have whole : Pruning.prunePackage (graph.isKept (.item id.item)) package = package :=
    prunePackage_eq_self fun link => agree.isKept_link linked.closed found
  have same : copied = Package.rename (graph.copyId (.item id.item)) package := by
    rw [← whole]
    exact isPruned
  have back := isCopy.origin_via id ((holds_iff_entity? _ (Id.item _)).mpr ⟨copied, isCopied⟩)
  have nodes : Package.nodes copied
      = (Package.nodes package).map (Node.rename (graph.copyId (.item id.item))) :=
    same ▸ Package.nodes_rename _ package
  refine isCopy.reaches_via_whole closed isCopied (back.symm ▸ found) nodes
    (fun inner contained next rest => ?_) (back.symm ▸ path)
  have present := closed.hasNode_of_contains contained
  obtain ⟨_, isEntity, listed⟩ := contains_item_iff.mp contained
  cases isCopied.symm.trans isEntity
  have inNodes : inner ∈ Package.nodes copied := listed
  rw [nodes] at inNodes
  obtain ⟨before, isBefore, rfl⟩ := List.mem_map.mp inNodes
  rcases List.mem_append.mp isBefore with inInterfaces | inWorlds
  · obtain ⟨interface, -, rfl⟩ := List.mem_map.mp inInterfaces
    have part : Node.IsPart (.item interface.item) := Or.inl rfl
    exact isCopy.reaches_via closed (Node.isPart_rename.mpr part) present rest
  · obtain ⟨world, isValue, rfl⟩ := List.mem_map.mp inWorlds
    have isLink : world.item ∈ package.links := List.mem_append_right _ (List.mem_map_of_mem isValue)
    rw [isCopy.rename_origin_via closed present] at rest
    exact linked.follows_world (linked.closed.holds_link found isLink)
      (agree.isKept_link linked.closed found isLink) (.single (.packageWorld found isValue)) rest

/-- **What the target depends on has copies if the target has one.** -/
theorem PackagesAgree.hasCopy_of_target (agree : graph.PackagesAgree) (linked : graph.WellLinked)
    {dependency : Node} (hasCopy : graph.HasCopy target target)
    (isDependency : graph.HasNode dependency) (depends : graph.dependsOn target dependency = true) :
    graph.HasCopy target dependency := by
  have inside := linked.hasNode_of_hasCopy hasCopy
  cases target with
  | function place => exact linked.hasCopy_of_dependsOn hasCopy trivial isDependency depends
  | item item =>
    obtain ⟨arena, index⟩ := item
    cases arena with
    | package =>
      exact linked.hasCopy_of_follows hasCopy (fun next => agree.follows_package linked inside)
        isDependency depends
    | world =>
      exact linked.hasCopy_of_follows hasCopy
        (fun next => linked.follows_world inside (isKept_self inside) .refl) isDependency depends
    | interface => exact linked.hasCopy_of_dependsOn hasCopy (Or.inl rfl) isDependency depends
    | type => exact linked.hasCopy_of_dependsOn hasCopy (Or.inr rfl) isDependency depends

/-- What is left of an entry of a kept world has a copy. -/
theorem WellLinked.hasCopy_of_leaves (linked : graph.WellLinked) {id : WorldId} {world : World}
    {side : Side} {entry : WorldKey × WorldItem} (kept : graph.isKept target id.item = true)
    (found : graph.world? id = some world) (listed : entry ∈ (world.side side).entries)
    (left : graph.leaves target id side entry = true) :
    graph.HasCopy target (entry.2.node id side entry.1) := by
  have inside : graph.Holds id.item := (holds_iff_entity? _ id.item).mpr ⟨world, found⟩
  obtain ⟨original, copied, isOriginal, isCopied, isPruned⟩ :=
    exists_pruned_copy linked.closed inside kept
  cases found.symm.trans isOriginal
  have isLeft : WorldItem.renameEntry (graph.copyId target) entry
      ∈ (World.side copied side).entries := by
    rw [IsPruned.entries_side isPruned]
    exact List.mem_map_of_mem (List.mem_filter.mpr ⟨listed, left⟩)
  have contained := Contains.worldEntry isCopied isLeft
  have present := (linked.isClosed_pruneTo target).hasNode_of_contains contained
  exact linked.hasCopy_iff.mpr (WorldItem.node_rename id side entry ▸ present)

/-- **The target has a copy unless it is a type or a function of an interface.** -/
theorem WellLinked.hasCopy_target (linked : graph.WellLinked) (present : graph.HasNode target)
    (notType : ∀ id : TypeId, target ≠ .item id.item)
    (notOfInterface : ∀ id name, target ≠ .function (.interface id name)) :
    graph.HasCopy target target := by
  have itself := dependsOn_self present
  cases target with
  | item item =>
    obtain ⟨arena, index⟩ := item
    cases arena with
    | package => exact linked.hasCopy_of_isFirst present ((Bool.or_eq_true _ _).mpr (Or.inl itself))
    | world | interface => exact linked.hasCopy_of_isFirst present itself
    | type => exact absurd rfl (notType ⟨index⟩)
  | function place =>
    cases place with
    | interface id name => exact absurd rfl (notOfInterface id name)
    | world id side key =>
      have ⟨function, found⟩ := present
      obtain ⟨world, isWorld, listed⟩ := function?_world_iff.mp found
      have inside : graph.Holds id.item := (holds_iff_entity? _ id.item).mpr ⟨world, isWorld⟩
      have first : (Pruning.start graph (.function (.world id side key))).isFirst id.item = true :=
        dependsOn_of_reaches present (.single (contains_container found))
      exact linked.hasCopy_of_leaves (isKept_of_isFirst inside first) isWorld listed itself

/-! ### All together -/

/-- What of the target, and of what it depends on, has a copy in the graph that is pruned to it. -/
structure Survival (graph : Graph) (target : Node) : Prop where
  /-- The pruned graph consists of copies of items of the graph. -/
  isCopy : (graph.pruneTo target).IsCopyOf graph (graph.originalId target) (graph.copyId target)
  /-- The target has a copy unless it is a type or a function of an interface. -/
  itself : (∀ id : TypeId, target ≠ .item id.item) →
    (∀ id name, target ≠ .function (.interface id name)) → graph.HasCopy target target
  /-- All interfaces that the target depends on have copies. -/
  interfaces : ∀ id : InterfaceId, .item id.item ∈ graph.nodes →
    graph.dependsOn target (.item id.item) = true → graph.HasCopy target (.item id.item)
  /-- All worlds that depend on the target have copies. -/
  worlds : ∀ id : WorldId, .item id.item ∈ graph.nodes →
    graph.dependsOn (.item id.item) target = true → graph.HasCopy target (.item id.item)
  /-- A function of an interface has a copy exactly if the interface has one. -/
  functions : ∀ id name, .function (.interface id name) ∈ graph.nodes →
    (graph.HasCopy target (.function (.interface id name)) ↔ graph.HasCopy target (.item id.item))
  /-- A type has a copy exactly if an interface with a copy, a function of a world with a copy or a type
  that a world with a copy lists reaches it. -/
  types : ∀ id : TypeId, graph.HasCopy target (.item id.item)
    ↔ ∃ node, graph.BringsTypes target node ∧ graph.Reaches node (.item id.item)
  /-- If the target has a copy, or an interface, type or function, then so has all that it depends on. -/
  dependencies : ∀ node, node = target ∨ node.IsPart → graph.HasCopy target node →
    ∀ dependency ∈ graph.nodes, graph.dependsOn node dependency = true →
      graph.HasCopy target dependency

/-- **What survives a pruning**, of the target and of what it depends on, if what packages list is linked
back to them. -/
theorem pruneTo_survival (isRead : graph.IsRead) (agree : graph.PackagesAgree)
    (present : target ∈ graph.nodes) : graph.Survival target := by
  have linked := wellLinked_of_isRead isRead
  refine ⟨linked.isCopyOf_pruneTo target, linked.hasCopy_target (mem_nodes_iff.mp present), ?_, ?_, ?_,
    ?_, ?_⟩
  · exact fun id inside needed => linked.hasCopy_of_isFirst (mem_nodes_iff.mp inside) needed
  · exact fun id inside needs => linked.hasCopy_of_isFirst (mem_nodes_iff.mp inside) needs
  · exact fun id name inside => linked.hasCopy_function_iff (mem_nodes_iff.mp inside)
  · exact fun id => linked.hasCopy_type_iff
  · rintro node either hasCopy dependency isDependency depends
    have inside := mem_nodes_iff.mp isDependency
    rcases either with rfl | part
    · exact agree.hasCopy_of_target linked hasCopy inside depends
    · exact linked.hasCopy_of_dependsOn hasCopy part inside depends

end

theorem packagesAgree_of_listed {graph : Graph}
    (each : ∀ id ∈ graph.ids .package, ∀ package ∈ graph.package? id,
      (∀ interface ∈ package.interfaces.values,
        (graph.interface? interface).bind Interface.package = some id)
      ∧ ∀ world ∈ package.worlds.values, (graph.world? world).bind World.package = some id) :
    graph.PackagesAgree := by
  have inside {id : PackageId} {package : Package} (found : graph.package? id = some package) :
      id ∈ graph.ids .package :=
    (graph.mem_ids_iff id).mpr ((holds_iff_entity? _ id.item).mpr ⟨package, found⟩)
  exact ⟨fun id package found => (each id (inside found) package found).1,
    fun id package found => (each id (inside found) package found).2⟩

/-- The method of the document survives the pruning to it: it depends on its resource, so it depends on
the interface that owns the resource. -/
theorem pruneTo_survival_method :
    let target : Node := .function (.interface ⟨0⟩ "[method]blob.read")
    Sample.graph.IsRead ∧ Sample.graph.PackagesAgree ∧ target ∈ Sample.graph.nodes
      ∧ Sample.graph.Survival target ∧ Sample.graph.HasCopy target target := by
  intro target
  have isRead : Sample.graph.IsRead := ⟨_, Sample.accepted⟩
  have agree : Sample.graph.PackagesAgree := packagesAgree_of_listed (by decide +kernel)
  have present : target ∈ Sample.graph.nodes := by decide +kernel
  have survival := pruneTo_survival isRead agree present
  have hasInterface : Sample.graph.HasCopy target (.item ⟨.interface, 0⟩) :=
    survival.interfaces ⟨0⟩ (by decide +kernel) (by decide +kernel)
  exact ⟨isRead, agree, present, survival, (survival.functions ⟨0⟩ _ present).mpr hasInterface⟩

namespace Unowned

/-- The lines of a document with an interface that has no types of its own. Its first function has no
parameters, the second one has a parameter of a type without owner. -/
def lines : List String := [
  "\x7b\"interfaces\":[\x7b\"name\":\"i\",\"package\":0,\"functions\":\x7b",
  "\"f\":\x7b\"name\":\"f\",\"kind\":\"freestanding\"\x7d,",
  "\"g\":\x7b\"name\":\"g\",\"kind\":\"freestanding\",",
  "\"params\":[\x7b\"name\":\"x\",\"type\":0\x7d]\x7d\x7d\x7d],",
  "\"types\":[\x7b\"kind\":\x7b\"list\":\"u8\"\x7d\x7d],",
  "\"packages\":[\x7b\"name\":\"a:b\",\"interfaces\":\x7b\"i\":0\x7d\x7d]\x7d"]

/-- The graph that the document describes. -/
def graph : Graph where
  interfaces := #[
    { name := some "i", package := some ⟨0⟩
      functions := .ofList [
        ("f", { name := "f", kind := .freestanding, params := [], results := .named [] }),
        ("g", { name := "g", kind := .freestanding, params := [⟨"x", .defined ⟨0⟩⟩]
                results := .named [] })] }]
  types := #[{ kind := .list (.primitive .u8) }]
  packages := #[
    { name := { ns := "a", package := "b" }, interfaces := .ofList [("i", ⟨0⟩)] }]
  packageNames := .ofList [({ ns := "a", package := "b" }, ⟨0⟩)]

theorem accepted : ofText ("\n".intercalate lines) = .ok graph := by
  rw [ofText_intercalate]
  decide +kernel

/-- The first function. -/
def bare : Node := .function (.interface ⟨0⟩ "f")

/-- The second function. -/
def typed : Node := .function (.interface ⟨0⟩ "g")

/-- The type without owner. -/
def loose : Node := .item ⟨.type, 0⟩

end Unowned

/-- **Not every target survives its own pruning**: functions of an interface that they do not depend on are
lost, and so are types that only such functions mention, also if a pruning is to the type itself. -/
theorem exists_target_lost :
    Unowned.graph.IsRead ∧ Unowned.graph.PackagesAgree
      ∧ (Unowned.bare ∈ Unowned.graph.nodes ∧ ¬ Unowned.graph.HasCopy Unowned.bare Unowned.bare)
      ∧ (Unowned.loose ∈ Unowned.graph.nodes ∧ ¬ Unowned.graph.HasCopy Unowned.loose Unowned.loose)
      ∧ (Unowned.typed ∈ Unowned.graph.nodes
        ∧ Unowned.graph.dependsOn Unowned.typed Unowned.loose = true
        ∧ ¬ Unowned.graph.HasCopy Unowned.typed Unowned.loose) := by
  refine ⟨⟨_, Unowned.accepted⟩, packagesAgree_of_listed (by decide +kernel), ?_⟩
  unfold HasCopy
  decide +kernel

end Graph

end WitGraph
