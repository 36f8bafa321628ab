/-
**Keeping items in rounds.**

`Pruning.kept` searches for all that is to be kept. The same can be found in rounds (`Pruning.round`): from
the packages, worlds and interfaces known to be kept, a round takes the types that are live and adds

* the interfaces that are left in the known worlds,
* the owners of the live types, and then
* the packages of the known worlds and interfaces,

and rounds go on until one adds nothing. `exists_rounds_settles` says that this happens, and that the known
items and the live types are then what the search keeps. A round adds only what the search keeps as well
(`round_sound`); and what a round has nothing to add to has all that it must be kept with
(`keeps_of_round_eq`).
-/

import Mathlib.Data.List.Lattice
import Mathlib.Data.List.Nodup
import Mathlib.Logic.Function.Iterate
import WitGraph.Proofs.LiveTypes
import WitGraph.Proofs.Pruning.Kept

namespace WitGraph

open LiveTypes (Root)

namespace Pruning

variable {pruning : Pruning} {known : List Item} {item : Item}

/-! ### Rounds -/

/-- The imports and exports that are left in a world. -/
def leftItems (pruning : Pruning) : Item → List WorldItem
  | ⟨.world, index⟩ =>
    match pruning.graph.world? ⟨index⟩ with
    | none => []
    | some world => (pruning.pruneWorld ⟨index⟩ world).items
  | _ => []

/-- The item as an interface, if it is one. -/
def interfaceId? : Item → Option InterfaceId
  | ⟨.interface, index⟩ => some ⟨index⟩
  | _ => none

/-- The item as a type, if it is one. -/
def typeId? : Item → Option TypeId
  | ⟨.type, index⟩ => some ⟨index⟩
  | _ => none

/-- The package of a world or interface. -/
def package? (pruning : Pruning) : Item → Option PackageId
  | ⟨.world, index⟩ => (pruning.graph.world? ⟨index⟩).bind World.package
  | ⟨.interface, index⟩ => (pruning.graph.interface? ⟨index⟩).bind Interface.package
  | _ => none

/-- The owner of a type. -/
def owner? (pruning : Pruning) (id : TypeId) : Option Item :=
  ((pruning.graph.type? id).map TypeDef.owner).bind Owner.item?

/-- The types that are live with the known worlds and interfaces. -/
def live (pruning : Pruning) (known : List Item) : LiveTypes :=
  LiveTypes.addEach pruning.graph {}
    ((known.flatMap pruning.leftItems).map .item ++ (known.filterMap interfaceId?).map .interface)

/-- The interfaces that are left in the known worlds. -/
def imported (pruning : Pruning) (known : List Item) : List Item :=
  ((known.flatMap pruning.leftItems).filterMap WorldItem.interface?).map Id.item

/-- The owners of the types that are live. -/
def owners (pruning : Pruning) (known : List Item) : List Item :=
  (pruning.live known).order.filterMap pruning.owner?

/-- The packages of the known worlds and interfaces. -/
def packages (pruning : Pruning) (known : List Item) : List Item :=
  (known.filterMap pruning.package?).map Id.item

/-- The items that are known after one more round, each once. -/
def round (pruning : Pruning) (known : List Item) : List Item :=
  let known := pruning.imported known ∪ known
  let known := pruning.owners known ∪ known
  pruning.packages known ∪ known

/-- Every round that changes anything adds something. -/
theorem suffix_round (pruning : Pruning) (known : List Item) : known <:+ pruning.round known :=
  ((List.suffix_union_right _ _).trans (List.suffix_union_right _ _)).trans (List.suffix_union_right _ _)

theorem nodup_round (once : known.Nodup) : (pruning.round known).Nodup :=
  ((once.union _).union _).union _

theorem length_lt_round (changed : pruning.round known ≠ known) :
    known.length < (pruning.round known).length := by
  have grown := pruning.suffix_round known
  exact Nat.lt_of_le_of_ne grown.length_le fun same => changed (grown.eq_of_length same).symm

/-- **A round changes nothing if and only if there is nothing to add.** -/
theorem round_eq_self_iff : pruning.round known = known
    ↔ pruning.imported known ⊆ known ∧ pruning.owners known ⊆ known
      ∧ pruning.packages known ⊆ known := by
  constructor
  · intro unchanged
    have withImported := List.suffix_union_right (pruning.imported known) known
    simp only [round] at unchanged
    generalize isFirst : pruning.imported known ∪ known = first at *
    have withOwners := List.suffix_union_right (pruning.owners first) first
    generalize isSecond : pruning.owners first ∪ first = second at *
    have withPackages := List.suffix_union_right (pruning.packages second) second
    have sameFirst : known = first := withImported.eq_of_length_le
      (unchanged ▸ (withOwners.trans withPackages).length_le)
    have sameSecond : first = second := withOwners.eq_of_length_le
      (sameFirst ▸ unchanged ▸ withPackages.length_le)
    subst sameFirst sameSecond
    refine ⟨fun item member => ?_, fun item member => ?_, fun item member => ?_⟩
    · exact isFirst ▸ List.mem_union_left member _
    · exact isSecond ▸ List.mem_union_left member _
    · exact unchanged ▸ List.mem_union_left member _
  · rintro ⟨noImported, noOwners, noPackages⟩
    simp only [round, noImported.union_eq_right, noOwners.union_eq_right, noPackages.union_eq_right]

/-! ### What is kept with an item -/

/-- **What must be kept with an item, as a round sees it.** -/
theorem mem_keeps_iff {other : Item} : other ∈ pruning.keeps item
    ↔ (∃ left ∈ pruning.leftItems item, other ∈ itemKeeps left)
      ∨ (∃ id, interfaceId? item = some id
          ∧ ∃ type ∈ pruning.graph.interfaceTypeIds id, other = type.item)
      ∨ (∃ package, pruning.package? item = some package ∧ other = package.item)
      ∨ ∃ id, typeId? item = some id
          ∧ ((∃ type ∈ pruning.graph.directIds id, other = type.item)
            ∨ pruning.owner? id = some other) := by
  obtain ⟨arena, index⟩ := item
  cases arena with
  | package => simp [keeps, leftItems, interfaceId?, package?, typeId?]
  | world =>
    cases found : pruning.graph.world? ⟨index⟩ with
    | none => simp [keeps, leftItems, interfaceId?, package?, typeId?, found]
    | some world => simp [keeps, leftItems, interfaceId?, package?, typeId?, found, eq_comm (a := other)]
  | interface =>
    simp [keeps, leftItems, interfaceId?, package?, typeId?, Graph.backLinks, eq_comm (a := other)]
  | type => simp [keeps, leftItems, interfaceId?, package?, typeId?, owner?, eq_comm (a := other)]

theorem eq_of_interfaceId? {id : InterfaceId} (isId : interfaceId? item = some id) : item = id.item := by
  obtain ⟨arena, index⟩ := item
  cases arena <;> cases isId
  rfl

theorem eq_of_typeId? {id : TypeId} (isId : typeId? item = some id) : item = id.item := by
  obtain ⟨arena, index⟩ := item
  cases arena <;> cases isId
  rfl

/-! ### What is live -/

/-- What the known worlds and interfaces need, and what that refers to, is live. -/
theorem mem_live_iff {id : TypeId} : id ∈ (pruning.live known).order
    ↔ ∃ needed, ((∃ item ∈ known, ∃ left ∈ pruning.leftItems item,
            needed ∈ pruning.graph.itemTypeIds left)
          ∨ ∃ item ∈ known, ∃ interface, interfaceId? item = some interface
            ∧ needed ∈ pruning.graph.interfaceTypeIds interface)
        ∧ Search.Reaches pruning.graph.directIds needed id := by
  rw [live, LiveTypes.mem_order_addEach_iff]
  simp only [List.mem_append, List.mem_map, List.mem_flatMap, List.mem_filterMap,
    ← Graph.mem_rootTypeIds_iff]
  constructor
  · rintro ⟨_, ⟨left, ⟨item, isKnown, isLeft⟩, rfl⟩ | ⟨interface, ⟨item, isKnown, isId⟩, rfl⟩,
      needed, needs, path⟩
    · exact ⟨needed, Or.inl ⟨item, isKnown, left, isLeft, needs⟩, path⟩
    · exact ⟨needed, Or.inr ⟨item, isKnown, interface, isId, needs⟩, path⟩
  · rintro ⟨needed, ⟨item, isKnown, left, isLeft, needs⟩ | ⟨item, isKnown, interface, isId, needs⟩, path⟩
    · exact ⟨.item left, Or.inl ⟨left, ⟨item, isKnown, isLeft⟩, rfl⟩, needed, needs, path⟩
    · exact ⟨.interface interface, Or.inr ⟨interface, ⟨item, isKnown, isId⟩, rfl⟩, needed, needs, path⟩

/-! ### Rounds add what must be kept -/

section Sound

variable {keep : Item → Prop} (closed : ∀ item, keep item → ∀ other ∈ pruning.keeps item, keep other)

include closed

theorem keep_of_interfaceTypeIds {id : InterfaceId} (kept : keep id.item) {type : TypeId}
    (needed : type ∈ pruning.graph.interfaceTypeIds id) : keep type.item :=
  closed id.item kept _ (mem_keeps_iff.mpr (Or.inr (Or.inl ⟨id, rfl, type, needed, rfl⟩)))

theorem keep_of_itemKeeps (kept : keep item) {left : WorldItem} (isLeft : left ∈ pruning.leftItems item)
    {other : Item} (member : other ∈ itemKeeps left) : keep other :=
  closed item kept _ (mem_keeps_iff.mpr (Or.inl ⟨left, isLeft, member⟩))

/-- Live types are kept if the known items are. -/
theorem keep_of_mem_live (kept : ∀ item ∈ known, keep item) {id : TypeId}
    (isLive : id ∈ (pruning.live known).order) : keep id.item := by
  obtain ⟨needed, source, path⟩ := mem_live_iff.mp isLive
  have keptNeeded : keep needed.item := by
    rcases source with ⟨item, isKnown, left, isLeft, needs⟩ | ⟨item, isKnown, interface, isId, needs⟩
    · have fromLeft {other : Item} (member : other ∈ itemKeeps left) : keep other :=
        keep_of_itemKeeps closed (kept item isKnown) isLeft member
      cases left with
      | interface interface stability =>
        exact keep_of_interfaceTypeIds closed (fromLeft (List.mem_singleton_self _)) needs
      | function function => exact fromLeft (List.mem_map_of_mem needs)
      | type id =>
        rw [List.mem_singleton.mp needs]
        exact fromLeft (List.mem_singleton_self _)
    · rw [eq_of_interfaceId? isId] at isKnown
      exact keep_of_interfaceTypeIds closed (kept interface.item isKnown) needs
  clear isLive
  induction path with
  | refl => exact keptNeeded
  | @tail before after _ direct ih =>
    exact closed before.item ih _
      (mem_keeps_iff.mpr (Or.inr (Or.inr (Or.inr ⟨before, rfl, Or.inl ⟨after, direct, rfl⟩⟩))))

/-- **A round adds packages, worlds and interfaces that must be kept**, and nothing else. -/
theorem round_sound (kept : ∀ item ∈ known, keep item ∧ item.arena ≠ .type) :
    ∀ item ∈ pruning.round known, keep item ∧ item.arena ≠ .type := by
  -- each of the three lists is sound for whatever is known when it is added
  have union {known others : List Item} (first : ∀ item ∈ others, keep item ∧ item.arena ≠ .type)
      (second : ∀ item ∈ known, keep item ∧ item.arena ≠ .type) :
      ∀ item ∈ others ∪ known, keep item ∧ item.arena ≠ .type := fun item member =>
    (List.mem_union_iff.mp member).elim (first item) (second item)
  have imported {known : List Item} (kept : ∀ item ∈ known, keep item ∧ item.arena ≠ .type) :
      ∀ item ∈ pruning.imported known, keep item ∧ item.arena ≠ .type := by
    intro item member
    obtain ⟨id, isInterface, rfl⟩ := List.mem_map.mp member
    obtain ⟨left, isLeft, isId⟩ := List.mem_filterMap.mp isInterface
    obtain ⟨world, isKnown, inWorld⟩ := List.mem_flatMap.mp isLeft
    refine ⟨keep_of_itemKeeps closed (kept world isKnown).1 inWorld ?_, Arena.noConfusion⟩
    cases left <;> cases isId
    exact List.mem_singleton_self _
  have owners {known : List Item} (kept : ∀ item ∈ known, keep item ∧ item.arena ≠ .type) :
      ∀ item ∈ pruning.owners known, keep item ∧ item.arena ≠ .type := by
    intro item member
    obtain ⟨id, isLive, isOwner⟩ := List.mem_filterMap.mp member
    have keptType := keep_of_mem_live closed (fun item isKnown => (kept item isKnown).1) isLive
    refine ⟨closed id.item keptType _
      (mem_keeps_iff.mpr (Or.inr (Or.inr (Or.inr ⟨id, rfl, Or.inr isOwner⟩)))), ?_⟩
    obtain ⟨owner, -, isItem⟩ := Option.bind_eq_some_iff.mp isOwner
    cases owner <;> cases isItem <;> exact Arena.noConfusion
  have packages {known : List Item} (kept : ∀ item ∈ known, keep item ∧ item.arena ≠ .type) :
      ∀ item ∈ pruning.packages known, keep item ∧ item.arena ≠ .type := by
    intro item member
    obtain ⟨package, isPackage, rfl⟩ := List.mem_map.mp member
    obtain ⟨holder, isKnown, isHeld⟩ := List.mem_filterMap.mp isPackage
    exact ⟨closed holder (kept holder isKnown).1 _
      (mem_keeps_iff.mpr (Or.inr (Or.inr (Or.inl ⟨package, isHeld, rfl⟩)))), Arena.noConfusion⟩
  have first := union (imported kept) kept
  have second := union (owners first) first
  exact union (packages second) second

end Sound

/-! ### A round that adds nothing -/

/-- The item is known, or is a live type. -/
def IsFound (pruning : Pruning) (known : List Item) (item : Item) : Prop :=
  item ∈ known ∨ ∃ id : TypeId, item = id.item ∧ id ∈ (pruning.live known).order

/-- **Where a round adds nothing, what must be kept with an item has been found.** -/
theorem isFound_of_keeps (settled : pruning.round known = known)
    (noTypes : ∀ item ∈ known, item.arena ≠ .type) (found : pruning.IsFound known item) {other : Item}
    (member : other ∈ pruning.keeps item) : pruning.IsFound known other := by
  obtain ⟨imported, owners, packages⟩ := round_eq_self_iff.mp settled
  have isKnown (noType : item.arena ≠ .type) : item ∈ known := by
    rcases found with isKnown | ⟨id, rfl, -⟩
    · exact isKnown
    · exact absurd rfl noType
  rcases mem_keeps_iff.mp member with ⟨left, isLeft, isKept⟩ | ⟨id, isId, type, needed, rfl⟩
    | ⟨package, isPackage, rfl⟩ | ⟨id, isId, leads⟩
  · have isWorld : item ∈ known := isKnown fun isType => by
      obtain ⟨arena, index⟩ := item
      cases isType
      cases isLeft
    have live {type : TypeId} (needed : type ∈ pruning.graph.itemTypeIds left) :
        pruning.IsFound known type.item :=
      Or.inr ⟨type, rfl, mem_live_iff.mpr ⟨type, Or.inl ⟨item, isWorld, left, isLeft, needed⟩, .refl⟩⟩
    cases left with
    | interface id stability =>
      have isLeftHere := List.mem_flatMap.mpr ⟨item, isWorld, isLeft⟩
      rw [List.mem_singleton.mp isKept]
      exact Or.inl (imported (List.mem_map_of_mem (List.mem_filterMap.mpr ⟨_, isLeftHere, rfl⟩)))
    | function function =>
      obtain ⟨type, needed, rfl⟩ := List.mem_map.mp isKept
      exact live needed
    | type id =>
      rw [List.mem_singleton.mp isKept]
      exact live (List.mem_singleton_self id)
  · have isInterface : item ∈ known := isKnown (eq_of_interfaceId? isId ▸ Arena.noConfusion)
    exact Or.inr ⟨type, rfl,
      mem_live_iff.mpr ⟨type, Or.inr ⟨item, isInterface, id, isId, needed⟩, .refl⟩⟩
  · have holds : item ∈ known := isKnown fun isType => by
      obtain ⟨arena, index⟩ := item
      cases isType
      cases isPackage
    exact Or.inl (packages (List.mem_map_of_mem (List.mem_filterMap.mpr ⟨item, holds, isPackage⟩)))
  · have isLive : id ∈ (pruning.live known).order := by
      rw [eq_of_typeId? isId] at found
      rcases found with isKnown | ⟨other, same, isLive⟩
      · exact absurd rfl (noTypes id.item isKnown)
      · exact Id.item_injective same ▸ isLive
    rcases leads with ⟨type, direct, rfl⟩ | isOwner
    · obtain ⟨needed, source, path⟩ := mem_live_iff.mp isLive
      exact Or.inr ⟨type, rfl, mem_live_iff.mpr ⟨needed, source, path.tail direct⟩⟩
    · exact Or.inl (owners (List.mem_filterMap.mpr ⟨id, isLive, isOwner⟩))

/-! ### The end of the rounds -/

/-- Rounds come to an end if only so many items can be added. -/
theorem exists_settled {keep : Item → Prop}
    (closed : ∀ item, keep item → ∀ other ∈ pruning.keeps item, keep other) {all : List Item}
    (finite : ∀ item, keep item → item ∈ all) (once : known.Nodup)
    (kept : ∀ item ∈ known, keep item ∧ item.arena ≠ .type) :
    ∃ rounds, pruning.round (pruning.round^[rounds] known) = pruning.round^[rounds] known := by
  obtain ⟨left, enough⟩ : ∃ left, all.length ≤ known.length + left := ⟨_, Nat.le_add_left _ _⟩
  induction left generalizing known with
  | zero =>
    refine ⟨0, by_contra fun changed => ?_⟩
    have more : known.length < (pruning.round known).length := length_lt_round changed
    have within : (pruning.round known).length ≤ all.length :=
      (List.Nodup.subperm (nodup_round once) fun item member =>
        finite item (round_sound closed kept item member).1).length_le
    omega
  | succ left ih =>
    by_cases settled : pruning.round known = known
    · exact ⟨0, settled⟩
    · have more := length_lt_round settled
      obtain ⟨rounds, isSettled⟩ := ih (nodup_round once) (round_sound closed kept) (by omega)
      exact ⟨rounds + 1, isSettled⟩

/-- Rounds lose nothing and add only what must be kept. -/
theorem iterate_round {keep : Item → Prop}
    (closed : ∀ item, keep item → ∀ other ∈ pruning.keeps item, keep other)
    (kept : ∀ item ∈ known, keep item ∧ item.arena ≠ .type) (rounds : Nat) :
    known <:+ pruning.round^[rounds] known
      ∧ ∀ item ∈ pruning.round^[rounds] known, keep item ∧ item.arena ≠ .type := by
  induction rounds with
  | zero => exact ⟨List.suffix_rfl, kept⟩
  | succ rounds ih =>
    rw [Function.iterate_succ_apply']
    exact ⟨ih.1.trans (pruning.suffix_round _), round_sound closed ih.2⟩

/-- The known items of a round that adds nothing are the packages, worlds and interfaces that the search
keeps, and the live types are the types that it keeps. -/
structure Settles (pruning : Pruning) (known : List Item) : Prop where
  unchanged : pruning.round known = known
  mem_iff : ∀ item, item ∈ known ↔ pruning.kept.hasEntered item = true ∧ item.arena ≠ .type
  live_iff : ∀ id, (pruning.live known).contains id = true ↔ pruning.kept.hasEntered id.item = true

end Pruning

namespace Graph

open Pruning

/-- **Rounds that go on until one adds nothing find what the search keeps.** -/
theorem exists_rounds_settles (graph : Graph) (target : Node) :
    ∃ rounds, (start graph target).Settles
      ((start graph target).round^[rounds] (graph.items.filter (start graph target).isFirst)) := by
  have closed : ∀ item, graph.isKept target item = true → ∀ other ∈ (start graph target).keeps item,
      graph.isKept target other = true := by
    intro item kept other member
    obtain ⟨root, isRoot, path⟩ := isKept_iff_leads.mp kept
    exact isKept_iff_leads.mpr ⟨root, isRoot, path.tail member⟩
  have finite : ∀ item, graph.isKept target item = true → item ∈ Search.discovery (graph.keeps target)
      (graph.itemCount + 1) (graph.items.filter (start graph target).isFirst) := by
    intro item kept
    exact (Search.mem_discovery_iff mem_items_of_keeps graph.length_items_lt _ _).mpr
      (isKept_iff_leads.mp kept)
  have first : ∀ item ∈ graph.items.filter (start graph target).isFirst,
      graph.isKept target item = true ∧ item.arena ≠ .type := by
    intro item member
    obtain ⟨listed, isFirst⟩ := List.mem_filter.mp member
    refine ⟨isKept_of_isFirst ((graph.mem_items_iff item).mp listed) isFirst, fun isType => ?_⟩
    obtain ⟨arena, index⟩ := item
    cases isType
    cases isFirst
  obtain ⟨rounds, unchanged⟩ := exists_settled closed finite (graph.nodup_items.filter _) first
  obtain ⟨grown, sound⟩ := iterate_round closed first rounds
  refine ⟨rounds, ?_⟩
  generalize (start graph target).round^[rounds] _ = last at unchanged grown sound ⊢
  have found {item : Item} (kept : graph.isKept target item = true) :
      (start graph target).IsFound last item := by
    obtain ⟨root, isRoot, path⟩ := isKept_iff_leads.mp kept
    clear kept
    induction path with
    | refl => exact Or.inl (grown.subset isRoot)
    | tail _ member ih =>
      exact isFound_of_keeps unchanged (fun item isKnown => (sound item isKnown).2) ih member
  refine ⟨unchanged, fun item => ⟨sound item, fun ⟨kept, noType⟩ => ?_⟩, fun id => ?_⟩
  · rcases found kept with isKnown | ⟨id, rfl, -⟩
    · exact isKnown
    · exact absurd rfl noType
  · refine LiveTypes.contains_addEach_iff.trans ⟨fun isLive => ?_, fun kept => ?_⟩
    · exact keep_of_mem_live closed (fun item isKnown => (sound item isKnown).1) isLive
    · rcases found kept with isKnown | ⟨other, same, isLive⟩
      · exact absurd rfl (sound id.item isKnown).2
      · exact Id.item_injective same ▸ isLive

end Graph

end WitGraph
