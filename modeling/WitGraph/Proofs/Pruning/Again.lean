/-
**Pruning a pruned graph.**

`Graph.KeepsTarget` says that what the target needs, and the packages and worlds that need the target,
do so in the pruned graph as well. Then pruning once more, to the copy of the target, changes nothing
(`pruneTo_pruneTo`):

* an entry that is left in a world is left again (`KeepsTarget.leaves`), and what is kept with an item
  is kept again with its copy (`KeepsTarget.mem_keeps`);
* so, by induction along the search, the copies of the kept items are kept (`KeepsTarget.isKept`), and
  there are no other items (`isKept_originalId`);
* a pruning that keeps all items and leaves all entries is a transfer of the whole graph
  (`IsClosed.pruneTo_eq`).
-/

import WitGraph.Proofs.Copying.Whole
import WitGraph.Proofs.Pruning.Dependency
import WitGraph.Proofs.Pruning.Derived
import WitGraph.Proofs.Pruning.Exact

namespace WitGraph

/-- A renamed entry keeps the renamed items. -/
theorem Pruning.itemKeeps_rename (via : Renaming) (item : WorldItem) :
    itemKeeps (item.rename via) = (itemKeeps item).map (Item.rename via) := by
  cases item with
  | interface id stability => rfl
  | type id => rfl
  | function func =>
    rw [WorldItem.rename, itemKeeps, itemKeeps, Function.signatureIds_rename]
    exact map_item_rename _

namespace Graph

variable {graph : Graph} {target : Node}

/-! ### Copies and originals -/

/-- The copy of a kept item. -/
theorem exists_pruned_copy (closed : graph.IsClosed) {arena : Arena} {id : Id arena}
    (inside : graph.Holds id.item) (kept : graph.isKept target id.item = true) :
    ∃ original pruned, graph.entity? id = some original
      ∧ (graph.pruneTo target).entity? (graph.copyId target id) = some pruned
      ∧ graph.IsPruned target (graph.isKept target) (graph.copyId target) id original pruned := by
  obtain ⟨trimmed, contents, -, filled⟩ := exists_filled closed inside kept
  have tidy := ((Pruning.start graph target).transfers_copier closed).tidy
  have place : graph.copyId target id = (Pruning.start graph target).copier.renamed id :=
    tidy.place_eq_renamed filled.copied
  have agree : Renaming.Agree (graph.copyId target) (Pruning.start graph target).copier.renamed
      trimmed.links := fun link isLink => tidy.place_eq_renamed (filled.links link isLink)
  exact place ▸ exists_pruned_of_agree closed contents filled agree

theorem holds_copyId (closed : graph.IsClosed) {arena : Arena} {id : Id arena}
    (inside : graph.Holds id.item) (kept : graph.isKept target id.item = true) :
    (graph.pruneTo target).Holds (graph.copyId target id).item := by
  obtain ⟨_, pruned, -, found, -⟩ := exists_pruned_copy closed inside kept
  exact (holds_iff_entity? _ _).mpr ⟨pruned, found⟩

/-- **Every item of the pruned graph is the copy of a kept one.** -/
theorem isKept_originalId (linked : graph.WellLinked) (mentions : graph.MentionsResources)
    {arena : Arena} {id : Id arena} (held : (graph.pruneTo target).Holds id.item) :
    graph.Holds (graph.originalId target id).item
      ∧ graph.isKept target (graph.originalId target id).item = true := by
  have tidy := ((Pruning.start graph target).transfers_copier linked.closed).tidy
  have copy := List.mem_of_getElem? (tidy.getElem?_copies (holds_withPackageNames.mp held))
  rw [copies_copier linked mentions] at copy
  obtain ⟨original, member, same⟩ := List.mem_map.mp copy
  cases Id.item_injective same
  exact mem_keptIds_iff.mp member

/-- What is left of the entries of a side. -/
theorem IsPruned.entries_side {kept : Item → Bool} {via : Renaming} {id : WorldId}
    {original pruned : World} (isPruned : @IsPruned graph target kept via .world id original pruned)
    (side : Side) :
    (pruned.side side).entries
      = ((original.side side).entries.filter (graph.leaves target id side)).map
          (WorldItem.renameEntry via) := by
  obtain ⟨imports, exports, -⟩ := isPruned
  cases side with
  | imports => exact imports
  | exports => exact exports

/-! ### Dependencies that survive -/

/-- The target as it is in the pruned graph. -/
def copyTarget (graph : Graph) (target : Node) : Node := target.rename (graph.copyId target)

/-- What the target needs, and the packages and worlds that need the target, do so in the pruned graph
too. -/
structure KeepsTarget (graph : Graph) (target : Node) : Prop where
  needed : ∀ node, (graph.pruneTo target).HasNode (node.rename (graph.copyId target)) →
    graph.dependsOn target node = true →
      (graph.pruneTo target).dependsOn (graph.copyTarget target)
        (node.rename (graph.copyId target)) = true
  needing : ∀ item, graph.Holds item → item.arena = .package ∨ item.arena = .world →
    graph.dependsOn (.item item) target = true →
      (graph.pruneTo target).dependsOn (.item (item.rename (graph.copyId target)))
        (graph.copyTarget target) = true

namespace KeepsTarget

variable (keepsTarget : graph.KeepsTarget target) (linked : graph.WellLinked)
include keepsTarget linked

/-- An entry that is left in a world is left again in its copy. -/
theorem leaves {id : WorldId} {pruned : World} {side : Side} {entry : WorldKey × WorldItem}
    (found : (graph.pruneTo target).world? (graph.copyId target id) = some pruned)
    (listed : WorldItem.renameEntry (graph.copyId target) entry ∈ (pruned.side side).entries)
    (left : graph.leaves target id side entry = true) :
    (graph.pruneTo target).leaves (graph.copyTarget target) (graph.copyId target id) side
      (WorldItem.renameEntry (graph.copyId target) entry) = true := by
  have present : (graph.pruneTo target).HasNode
      ((entry.2.node id side entry.1).rename (graph.copyId target)) := by
    rw [← WorldItem.node_rename]
    exact (linked.isClosed_pruneTo target).hasNode_of_contains (.worldEntry found listed)
  obtain ⟨key, item⟩ := entry
  cases item with
  | type other => rfl
  | interface other stability => exact keepsTarget.needed _ present left
  | function function => exact keepsTarget.needed _ present left

/-- **What is kept with a kept item is kept again with its copy.** -/
theorem mem_keeps {item other : Item} (inside : graph.Holds item)
    (kept : graph.isKept target item = true) (member : other ∈ graph.keeps target item) :
    other.rename (graph.copyId target)
      ∈ (graph.pruneTo target).keeps (graph.copyTarget target)
        (item.rename (graph.copyId target)) := by
  obtain ⟨original, pruned, isOriginal, found, isPruned⟩ :=
    exists_pruned_copy linked.closed (show graph.Holds item.id.item from inside) kept
  obtain ⟨arena, index⟩ := item
  cases arena with
  | package => cases member
  | world =>
    refine (mem_keeps_world_iff found).mpr ?_
    rcases (mem_keeps_world_iff isOriginal).mp member with
      ⟨side, entry, listed, left, inEntry⟩ | ⟨package, owned, rfl⟩
    · have isLeft : WorldItem.renameEntry (graph.copyId target) entry
          ∈ (World.side pruned side).entries := by
        rw [IsPruned.entries_side isPruned]
        exact List.mem_map_of_mem (List.mem_filter.mpr ⟨listed, left⟩)
      refine Or.inl ⟨side, _, isLeft, keepsTarget.leaves linked found isLeft left, ?_⟩
      show _ ∈ Pruning.itemKeeps (entry.2.rename (graph.copyId target))
      rw [Pruning.itemKeeps_rename]
      exact List.mem_map_of_mem inEntry
    · obtain ⟨-, -, same⟩ := isPruned
      refine Or.inr ⟨graph.copyId target package, ?_, rfl⟩
      rw [congrArg World.package same]
      exact Option.map_eq_some_iff.mpr ⟨package, owned, rfl⟩
  | interface =>
    cases (isPruned : pruned = Interface.rename (graph.copyId target) original)
    refine (mem_keeps_interface_iff found).mpr ?_
    rcases (mem_keeps_interface_iff isOriginal).mp member with
      ⟨type, listed, rfl⟩ | ⟨function, isFunction, type, inSignature, rfl⟩ | ⟨package, owned, rfl⟩
    · have types : (Interface.rename (graph.copyId target) original).types.values = _ :=
        OrderedMap.values_mapValues ..
      exact Or.inl ⟨_, types ▸ List.mem_map_of_mem listed, rfl⟩
    · have functions : (Interface.rename (graph.copyId target) original).functions.values = _ :=
        OrderedMap.values_mapValues ..
      refine Or.inr (Or.inl ⟨_, functions ▸ List.mem_map_of_mem isFunction,
        graph.copyId target type, ?_, rfl⟩)
      rw [Function.signatureIds_rename]
      exact List.mem_map_of_mem inSignature
    · exact Or.inr (Or.inr ⟨_, Option.map_eq_some_iff.mpr ⟨package, owned, rfl⟩, rfl⟩)
  | type =>
    cases (isPruned : pruned = TypeDef.rename (graph.copyId target) original)
    refine (mem_keeps_type_iff found).mpr ?_
    rcases (mem_keeps_type_iff isOriginal).mp member with ⟨type, direct, rfl⟩ | owned
    · have directIds : (TypeDef.rename (graph.copyId target) original).kind.directIds = _ :=
        Kind.directIds_rename _
      exact Or.inl ⟨_, directIds ▸ List.mem_map_of_mem direct, rfl⟩
    · right
      show (Owner.rename (graph.copyId target) (TypeDef.owner original)).item? = _
      cases owner : TypeDef.owner original <;> rw [owner] at owned <;> cases owned <;> rfl

/-- First items have first items as their copies. -/
theorem isFirst {item : Item} (inside : graph.Holds item)
    (first : (Pruning.start graph target).isFirst item = true) :
    (Pruning.start (graph.pruneTo target) (graph.copyTarget target)).isFirst
      (item.rename (graph.copyId target)) = true := by
  have kept := isKept_of_isFirst inside first
  have present : (graph.pruneTo target).HasNode ((Node.item item).rename (graph.copyId target)) :=
    holds_copyId linked.closed (show graph.Holds item.id.item from inside) kept
  obtain ⟨arena, index⟩ := item
  cases arena with
  | package =>
    refine (Bool.or_eq_true _ _).mpr (((Bool.or_eq_true _ _).mp first).imp ?_ ?_)
    · exact keepsTarget.needing _ inside (Or.inl rfl)
    · exact keepsTarget.needed _ present
  | world => exact keepsTarget.needing _ inside (Or.inr rfl) first
  | interface => exact keepsTarget.needed _ present first
  | type => cases first

/-- The copies of the items to which the first ones lead are kept again. -/
theorem isKept {item : Item} (kept : graph.isKept target item = true) :
    (graph.pruneTo target).isKept (graph.copyTarget target)
      (item.rename (graph.copyId target)) = true := by
  obtain ⟨root, isRoot, path⟩ := isKept_iff_leads.mp kept
  obtain ⟨listed, first⟩ := List.mem_filter.mp isRoot
  have inside := (graph.mem_items_iff root).mp listed
  have keptRoot := isKept_of_isFirst inside first
  -- `kept` is about the last item of the path only, so the induction goes without it
  clear kept
  induction path with
  | refl =>
    have present : (graph.pruneTo target).Holds (root.rename (graph.copyId target)) :=
      holds_copyId linked.closed (show graph.Holds root.id.item from inside) keptRoot
    exact isKept_of_isFirst present (keepsTarget.isFirst linked inside first)
  | tail path member ih =>
    refine isKept_of_mem_keeps ih (keepsTarget.mem_keeps linked ?_ ?_ member)
    · exact holds_of_keeps (List.ne_nil_of_mem member)
    · exact isKept_of_leads keptRoot path

end KeepsTarget

/-! ### Prunings that keep everything -/

theorem prunePackage_eq_self {isKept : Item → Bool} {package : Package}
    (keepsAll : ∀ link ∈ package.links, isKept link = true) :
    Pruning.prunePackage isKept package = package := by
  have interfaces : package.interfaces.filter (fun _ id => isKept id.item) = package.interfaces :=
    OrderedMap.filter_eq_self fun entry listed => keepsAll _
      (List.mem_append_left _ (List.mem_map_of_mem (List.mem_map_of_mem listed)))
  have worlds : package.worlds.filter (fun _ id => isKept id.item) = package.worlds :=
    OrderedMap.filter_eq_self fun entry listed => keepsAll _
      (List.mem_append_right _ (List.mem_map_of_mem (List.mem_map_of_mem listed)))
  rw [Pruning.prunePackage, interfaces, worlds]

theorem pruneWorld_eq_self {id : WorldId} {world : World}
    (leavesAll : ∀ side, ∀ entry ∈ (world.side side).entries,
      graph.leaves target id side entry = true) :
    (Pruning.start graph target).pruneWorld id world = world := by
  have side (side : Side) :
      ((Pruning.start graph target).pruneWorld id world).side side = world.side side :=
    OrderedMap.ext ((entries_side_pruneWorld id world side).trans
      (List.filter_eq_self.mpr (leavesAll side)))
  show { world with
    imports := ((Pruning.start graph target).pruneWorld id world).side .imports
    exports := ((Pruning.start graph target).pruneWorld id world).side .exports } = world
  rw [side, side]
  rfl

/-- **A pruning that keeps all items and leaves all entries gives the graph itself**, its packages
being entered by name. -/
theorem IsClosed.pruneTo_eq (closed : graph.IsClosed)
    (keepsAll : ∀ item, graph.Holds item → graph.isKept target item = true)
    (leavesAll : ∀ id world, graph.world? id = some world → ∀ side, ∀ entry ∈ (world.side side).entries,
      graph.leaves target id side entry = true) :
    graph.pruneTo target = graph.withPackageNames := by
  have whole (item : Item) (held : graph.Holds item) :
      (Pruning.start graph target).contents? (graph.isKept target) item = graph.entity? item.id := by
    obtain ⟨entity, found⟩ := (graph.holds_iff_entity? item).mp held
    obtain ⟨arena, index⟩ := item
    rw [found]
    cases arena with
    | package =>
      refine Option.map_eq_some_iff.mpr ⟨entity, found, prunePackage_eq_self fun link isLink => ?_⟩
      exact keepsAll link (closed.holds_link found isLink)
    | world =>
      exact Option.map_eq_some_iff.mpr
        ⟨entity, found, pruneWorld_eq_self (leavesAll ⟨index⟩ entity found)⟩
    | interface => exact found
    | type => exact found
  have items : (Pruning.start graph target).keptItems = graph.items :=
    List.filter_eq_self.mpr fun item listed => keepsAll item ((graph.mem_items_iff item).mp listed)
  refine withPackageNames_congr fun arena => ?_
  show (graph.transfer (Pruning.start graph target).keptItems
    ((Pruning.start graph target).contents? (graph.isKept target))).target.arena arena = _
  rw [items]
  exact arena_transfer_items closed whole arena

/-- **Pruning again to the copy of the target changes nothing.** -/
theorem KeepsTarget.pruneTo_pruneTo (keepsTarget : graph.KeepsTarget target)
    (linked : graph.WellLinked) (mentions : graph.MentionsResources) :
    (graph.pruneTo target).pruneTo (graph.copyTarget target) = graph.pruneTo target := by
  have isCopy := linked.isCopyOf_pruneTo target
  have closed := linked.isClosed_pruneTo target
  -- everything in the pruned graph is the copy of its original, which is kept
  have original {arena : Arena} (id : Id arena)
      (held : (graph.pruneTo target).Holds id.item) :
      graph.Holds (graph.originalId target id).item
        ∧ graph.isKept target (graph.originalId target id).item = true
        ∧ graph.copyId target (graph.originalId target id) = id := by
    obtain ⟨inside, kept⟩ := isKept_originalId linked mentions held
    exact ⟨inside, kept, isCopy.via_origin id held⟩
  refine (closed.pruneTo_eq ?_ ?_).trans rfl
  · intro item held
    obtain ⟨-, kept, back⟩ := original item.id held
    have again := keepsTarget.isKept linked kept
    rwa [show (graph.originalId target item.id).item.rename (graph.copyId target) = item from
      congrArg Id.item back] at again
  · intro id world found side entry listed
    obtain ⟨inside, kept, back⟩ :=
      original id ((holds_iff_entity? _ id.item).mpr ⟨world, found⟩)
    obtain ⟨source, pruned, -, isPrunedWorld, isPruned⟩ :=
      exists_pruned_copy linked.closed inside kept
    cases (back ▸ isPrunedWorld).symm.trans found
    have entries := IsPruned.entries_side isPruned side
    obtain ⟨before, isLeft, rfl⟩ := List.mem_map.mp (entries ▸ listed)
    have again := keepsTarget.leaves linked isPrunedWorld listed (List.mem_filter.mp isLeft).2
    rwa [back] at again

end Graph

end WitGraph
