/-
**Where the types of a pruned graph come from.**

A pruning begins with packages, worlds and interfaces, and whatever it copies is at the end of a path of
links from the copy of one of these (`exists_led`). A type on such a path is contained in what stands
before it, since links that are no containment lead to worlds, interfaces and packages. So the path from
the last world or interface on it is a path of containment: every type of a pruned graph is reached from
a world or an interface of this graph (`WellLinked.exists_container`).
-/

import WitGraph.Proofs.Copying.Provenance
import WitGraph.Proofs.Liveness
import WitGraph.Proofs.Pruning.Again

namespace WitGraph

/-- The item is a world or an interface. -/
def Item.IsContainer (item : Item) : Prop := item.arena = .world ∨ item.arena = .interface

theorem Pruning.itemKeeps_subset_links (item : WorldItem) : itemKeeps item ⊆ item.links := by
  intro link member
  cases item with
  | interface id stability => exact member
  | type id => exact member
  | function function =>
    obtain ⟨id, inSignature, rfl⟩ := List.mem_map.mp member
    exact List.mem_map_of_mem (Graph.mem_mentionedIds_of_mem_signatureIds inSignature)

namespace Graph

section

variable {graph : Graph} {target : Node}

/-! ### Links to types -/

/-- Only worlds, interfaces and types refer to a type, and they contain it. -/
theorem contains_of_mem_links {item : Item} {type : TypeId} (member : type.item ∈ graph.links item) :
    (item.IsContainer ∨ item.arena = .type) ∧ type.item ∈ graph.contents item := by
  obtain ⟨entity, found⟩ :=
    (graph.holds_iff_entity? item).mp (holds_of_links (List.ne_nil_of_mem member))
  rw [links_of_entity? found] at member
  obtain ⟨arena, index⟩ := item
  cases arena with
  | package =>
    exfalso
    rcases List.mem_append.mp member with inInterfaces | inWorlds
    · obtain ⟨_, -, ⟨⟩⟩ := List.mem_map.mp inInterfaces
    · obtain ⟨_, -, ⟨⟩⟩ := List.mem_map.mp inWorlds
  | world =>
    refine ⟨Or.inl (Or.inl rfl), ?_⟩
    have contents : graph.contents (Id.item (⟨index⟩ : WorldId)) = _ := contents_world found
    refine contents ▸ ?_
    rcases List.mem_append.mp member with inEntries | inPackage
    · obtain ⟨⟨key, entry⟩, listed, inEntry⟩ := List.mem_flatMap.mp inEntries
      refine List.mem_flatMap.mpr ⟨entry, List.mem_map_of_mem listed, ?_⟩
      rcases List.mem_append.mp inEntry with inKey | inItem
      · obtain ⟨_, -, ⟨⟩⟩ := Option.map_eq_some_iff.mp (Option.mem_toList.mp inKey)
      · cases entry <;> exact inItem
    · obtain ⟨_, -, ⟨⟩⟩ := Option.map_eq_some_iff.mp (Option.mem_toList.mp inPackage)
  | interface =>
    refine ⟨Or.inl (Or.inr rfl), ?_⟩
    have contents : graph.contents (Id.item (⟨index⟩ : InterfaceId)) = _ := contents_interface found
    refine contents ▸ ?_
    rcases List.mem_append.mp member with inside | inPackage
    · exact inside
    · obtain ⟨_, -, ⟨⟩⟩ := Option.map_eq_some_iff.mp (Option.mem_toList.mp inPackage)
  | type =>
    refine ⟨Or.inr rfl, ?_⟩
    have contents : graph.contents (Id.item (⟨index⟩ : TypeId)) = _ :=
      contents_type (Option.map_eq_some_iff.mpr ⟨entity, found, rfl⟩)
    refine contents ▸ (List.mem_append.mp member).resolve_left fun owned => ?_
    exact Owner.item?_ne_type _ _ (Option.mem_toList.mp owned)

/-- A type to which links lead from something that is not a type is reached from a world or
interface. -/
theorem exists_container_of_links {root item : Item} (isRoot : root.arena ≠ .type)
    (path : Search.Reaches graph.links root item) (isType : item.arena = .type) :
    ∃ container : Item, container.IsContainer ∧ graph.Holds container
      ∧ graph.Reaches (.item container) (.item item) := by
  induction path with
  | refl => exact absurd isType isRoot
  | @tail before item path member ih =>
    obtain ⟨arena, index⟩ := item
    cases (isType : arena = .type)
    have isLink : Id.item (⟨index⟩ : TypeId) ∈ graph.links before := member
    obtain ⟨isContainer | isTypeBefore, contained⟩ := contains_of_mem_links isLink
    · exact ⟨before, isContainer, holds_of_links (List.ne_nil_of_mem member),
        reaches_of_contents (.single contained)⟩
    · obtain ⟨container, isContainer, inside, reached⟩ := ih isTypeBefore
      exact ⟨container, isContainer, inside, reached.trans (reaches_of_contents (.single contained))⟩

/-! ### What a pruning copies -/

/-- What is kept with an item is among the links of what is left of the item. -/
theorem finalLink_of_mem_keeps {item other : Item} (held : graph.Holds item)
    (kept : graph.isKept target item = true) (member : other ∈ graph.keeps target item) :
    Copier.FinalLink graph (Pruning.start graph target).keptItems
      ((Pruning.start graph target).contents? (graph.isKept target)) item other := by
  have listed : item ∈ (Pruning.start graph target).keptItems :=
    List.mem_filter.mpr ⟨(graph.mem_items_iff item).mpr held, kept⟩
  refine Or.inl ⟨listed, ?_⟩
  obtain ⟨entity, found⟩ := (graph.holds_iff_entity? item).mp held
  obtain ⟨arena, index⟩ := item
  cases arena with
  | package => cases member
  | world =>
    obtain ⟨world, found⟩ : ∃ world, graph.world? ⟨index⟩ = some world := ⟨entity, found⟩
    refine ⟨_, Option.map_eq_some_iff.mpr ⟨world, found, rfl⟩, ?_⟩
    rcases (mem_keeps_world_iff found).mp member with
      ⟨side, entry, listed, left, inEntry⟩ | ⟨package, owned, rfl⟩
    · have isLeft := List.mem_filter.mpr ⟨listed, left⟩
      rw [← entries_side_pruneWorld] at isLeft
      exact mem_links_of_mem_entryLinks isLeft
        (List.mem_append_right _ (Pruning.itemKeeps_subset_links _ inEntry))
    · exact List.mem_append_right _
        (Option.mem_toList.mpr (Option.map_eq_some_iff.mpr ⟨package, owned, rfl⟩))
  | interface =>
    refine ⟨entity, found, ?_⟩
    rcases (mem_keeps_interface_iff found).mp member with
      ⟨type, listed, rfl⟩ | ⟨function, isFunction, type, inSignature, rfl⟩ | ⟨package, owned, rfl⟩
    · exact List.mem_append_left _ (List.mem_append_left _ (List.mem_map_of_mem listed))
    · exact List.mem_append_left _ (List.mem_append_right _ (List.mem_flatMap.mpr ⟨function, isFunction,
        List.mem_map_of_mem (mem_mentionedIds_of_mem_signatureIds inSignature)⟩))
    · exact List.mem_append_right _
        (Option.mem_toList.mpr (Option.map_eq_some_iff.mpr ⟨package, owned, rfl⟩))
  | type =>
    refine ⟨entity, found, ?_⟩
    rcases (mem_keeps_type_iff found).mp member with ⟨type, direct, rfl⟩ | owned
    · exact List.mem_append_right _ (List.mem_map_of_mem direct)
    · exact List.mem_append_left _ (Option.mem_toList.mpr owned)

/-- **Whatever a pruning copies is led to from an item with which it begins**, by way of what copies
refer to. -/
theorem exists_led {item : Item} (copied : (Pruning.start graph target).copier.Copied item) :
    ∃ root, graph.Holds root ∧ (Pruning.start graph target).isFirst root = true
      ∧ Relation.ReflTransGen (Copier.FinalLink graph (Pruning.start graph target).keptItems
          ((Pruning.start graph target).contents? (graph.isKept target))) root item := by
  obtain ⟨listed, isListed, later⟩ :=
    Copier.transfer_led (fun _ => (Pruning.start graph target).holds_of_mem_keptItems) copied
  have kept : graph.isKept target listed = true := (List.mem_filter.mp isListed).2
  obtain ⟨root, isRoot, path⟩ := isKept_iff_leads.mp kept
  obtain ⟨inGraph, first⟩ := List.mem_filter.mp isRoot
  have inside := (graph.mem_items_iff root).mp inGraph
  refine ⟨root, inside, first, Relation.ReflTransGen.trans ?_ later⟩
  clear kept isListed later
  induction path with
  | refl => exact .refl
  | tail path member ih =>
    refine ih.tail (finalLink_of_mem_keeps ?_ ?_ member)
    · exact holds_of_keeps (List.ne_nil_of_mem member)
    · exact isKept_of_leads (isKept_of_isFirst inside first) path

/-- A pruning does not begin with types. -/
theorem arena_ne_type_of_isFirst {item : Item}
    (first : (Pruning.start graph target).isFirst item = true) : item.arena ≠ .type := by
  obtain ⟨arena, index⟩ := item
  rintro ⟨⟩
  cases first

/-- From the copy of an item with which the pruning begins, links lead to each item of the result. -/
theorem WellLinked.exists_root (linked : graph.WellLinked) {item : Item}
    (held : (graph.pruneTo target).Holds item) :
    ∃ root : Item, root.arena ≠ .type ∧ Search.Reaches (graph.pruneTo target).links root item := by
  have transfers := (Pruning.start graph target).transfers_copier linked.closed
  have copied : (Pruning.start graph target).copier.Copied (graph.originalId target item.id).item :=
    transfers.tidy.copied_origin (holds_withPackageNames.mp held)
  have back : (Pruning.start graph target).copier.renamed (graph.originalId target item.id) = item.id :=
    (transfers.tidy.place_eq_renamed copied).symm.trans
      (transfers.tidy.place_origin (holds_withPackageNames.mp held))
  obtain ⟨root, inside, first, path⟩ := exists_led copied
  obtain ⟨_, -, -, filled⟩ := exists_filled linked.closed
    (show graph.Holds root.id.item from inside) (isKept_of_isFirst inside first)
  obtain ⟨-, links⟩ := transfers.reaches filled.copied path
  have notType : root.arena ≠ .type := arena_ne_type_of_isFirst first
  refine ⟨root.rename (Pruning.start graph target).copier.renamed, notType, ?_⟩
  have sameLinks : (graph.pruneTo target).links
      = (Pruning.start graph target).copier.target.links := funext fun _ => links_withPackageNames
  have sameItem : (graph.originalId target item.id).item.rename
      (Pruning.start graph target).copier.renamed = item := congrArg Id.item back
  rwa [sameLinks, ← sameItem]

/-- **Every type of a pruned graph is reached from one of its worlds or interfaces.** -/
theorem WellLinked.exists_container (linked : graph.WellLinked) {type : TypeId}
    (held : (graph.pruneTo target).Holds type.item) :
    ∃ container : Item, container.IsContainer ∧ (graph.pruneTo target).Holds container
      ∧ (graph.pruneTo target).Reaches (.item container) (.item type.item) := by
  obtain ⟨root, isRoot, path⟩ := linked.exists_root held
  exact exists_container_of_links isRoot path rfl

end

end Graph

end WitGraph
