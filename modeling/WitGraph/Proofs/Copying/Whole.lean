/-
**Copying a whole graph.**

A transfer of all items of a closed graph, each with its own contents, gives every copy the position
of its original (`position?_transfer_items`), and so the copies are what the originals are
(`arena_transfer_items`). Only the names of packages are entered anew, so a closed graph is copied to
itself with its packages entered by name (`IsClosed.deepClone_eq`).
-/

import WitGraph.Proofs.Copying.Settled

namespace WitGraph.Graph

variable {graph : Graph}

/-! ### Graphs with the same arenas -/

/-- Graphs with the same arenas have the same packages to enter by name. -/
theorem withPackageNames_congr {other : Graph}
    (same : ∀ arena, graph.arena arena = other.arena arena) :
    graph.withPackageNames = other.withPackageNames := by
  obtain ⟨worlds, interfaces, types, packages, names⟩ := graph
  obtain ⟨otherWorlds, otherInterfaces, otherTypes, otherPackages, otherNames⟩ := other
  cases (same .world : worlds = otherWorlds)
  cases (same .interface : interfaces = otherInterfaces)
  cases (same .type : types = otherTypes)
  cases (same .package : packages = otherPackages)
  rfl

/-! ### Copies at the positions of their originals -/

section Transfer

variable {contents : (item : Item) → Option (Entity item.arena)} (closed : graph.IsClosed)
  (whole : ∀ item, graph.Holds item → contents item = graph.entity? item.id)
include closed whole

/-- What an item of the graph contains refers to items of the graph. -/
theorem holds_of_mem_contents {item : Item} (held : graph.Holds item) {entity : Entity item.arena}
    (given : contents item = some entity) {link : Item} (member : link ∈ entity.links) :
    graph.Holds link := by
  rw [whole item held] at given
  exact closed.holds_link given member

theorem transfers_items :
    Copier.Transfers graph graph.items contents (graph.transfer graph.items contents) := by
  refine Copier.transfer_transfers closed (fun item => (graph.mem_items_iff item).mp) ?_
  intro item member
  have held := (graph.mem_items_iff item).mp member
  obtain ⟨entity, found⟩ := (graph.holds_iff_entity? item).mp held
  have given := (whole item held).trans found
  exact ⟨entity, given, fun link => holds_of_mem_contents closed whole held given⟩

theorem copies_transfer_items (arena : Arena) :
    (graph.transfer graph.items contents).copies arena = (graph.ids arena).map Id.item := by
  rw [← filter_arena_items]
  refine Copier.copies_transfer graph.nodup_items (fun item => (graph.mem_items_iff item).mp) ?_ arena
  intro item member entity given link isLink
  have held := (graph.mem_items_iff item).mp member
  exact (graph.mem_items_iff link).mpr (holds_of_mem_contents closed whole held given isLink)

/-- **Every item of the graph is copied to its own position.** -/
theorem position?_transfer_items {arena : Arena} {id : Id arena} (held : graph.Holds id.item) :
    (graph.transfer graph.items contents).position? id.item = some id.index := by
  have listed : ((graph.transfer graph.items contents).copies arena)[id.index]? = some id.item := by
    have inside : id.index < graph.size arena := held
    rw [copies_transfer_items closed whole, List.getElem?_map, ids, List.getElem?_map,
      List.getElem?_range inside]
    rfl
  exact (transfers_items closed whole).tidy.position_of_getElem? listed

theorem renamed_transfer_items {arena : Arena} {id : Id arena} (held : graph.Holds id.item) :
    (graph.transfer graph.items contents).renamed id = id :=
  Copier.renamed_of_position id (position?_transfer_items closed whole held)

theorem entity?_transfer_items {arena : Arena} {id : Id arena} (held : graph.Holds id.item) :
    (graph.transfer graph.items contents).target.entity? id = graph.entity? id := by
  obtain ⟨entity, found⟩ := (graph.holds_iff_entity? id.item).mp held
  have given := (whole id.item held).trans found
  have filled := ((transfers_items closed whole).listed id.item
    ((graph.mem_items_iff _).mpr held) entity given).held
  -- the links of the entity keep their ids, and so does the entity
  have agree : Renaming.Agree (graph.transfer graph.items contents).renamed (fun id => id)
      entity.links := fun link member =>
    renamed_transfer_items closed whole (holds_of_mem_contents closed whole held given member)
  have place : (graph.transfer graph.items contents).renamed id.item.id = id :=
    renamed_transfer_items closed whole held
  rw [Entity.rename_congr agree, Entity.rename_self, place] at filled
  exact filled.trans found.symm

/-- **A transfer of all items has the same arenas.** -/
theorem arena_transfer_items (arena : Arena) :
    (graph.transfer graph.items contents).target.arena arena = graph.arena arena := by
  have size : (graph.transfer graph.items contents).target.size arena = graph.size arena := by
    rw [(transfers_items closed whole).tidy.size, copies_transfer_items closed whole,
      List.length_map, ids, List.length_map, List.length_range]
  refine Array.ext_getElem? fun index => ?_
  by_cases inside : index < graph.size arena
  · have held : graph.Holds (Id.item (⟨index⟩ : Id arena)) := inside
    exact entity?_transfer_items closed whole held
  · have outside : graph.size arena ≤ index := Nat.not_lt.mp inside
    have outsideCopy := Nat.le_trans (Nat.le_of_eq size) outside
    rw [Array.getElem?_eq_none outside, Array.getElem?_eq_none outsideCopy]

end Transfer

/-! ### Deep copies -/

/-- **A closed graph is copied to itself**, its packages being entered by name. -/
theorem IsClosed.deepClone_eq (closed : graph.IsClosed) :
    graph.deepClone.1 = graph.withPackageNames :=
  withPackageNames_congr fun arena => arena_transfer_items closed (fun _ _ => rfl) arena

theorem IsClosed.position?_deepClone (closed : graph.IsClosed) {arena : Arena} {id : Id arena}
    (held : graph.Holds id.item) : graph.deepClone.2.position? id.item = some id.index :=
  position?_transfer_items closed (fun _ _ => rfl) held

end WitGraph.Graph
