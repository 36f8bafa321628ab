/-
**The items of a graph.**

`Graph.Holds` says that an item is within its arena. `Graph.items` lists exactly these items, each
once and arena by arena, and only these contain something or refer to something.
-/

import Mathlib.Data.List.Nodup
import WitGraph.Copying

namespace WitGraph.Graph

/-! ### Items within their arenas -/

/-- The item is within its arena. -/
def Holds (graph : Graph) (item : Item) : Prop := item.index < graph.size item.arena

instance (graph : Graph) (item : Item) : Decidable (graph.Holds item) :=
  inferInstanceAs (Decidable (_ < _))

theorem mem_ids_iff (graph : Graph) {arena : Arena} (id : Id arena) :
    id ∈ graph.ids arena ↔ graph.Holds id.item := by
  obtain ⟨index⟩ := id
  simp [ids, Holds, Id.item]

theorem mem_items_iff (graph : Graph) (item : Item) : item ∈ graph.items ↔ graph.Holds item := by
  obtain ⟨arena, index⟩ := item
  have listed : (⟨arena, index⟩ : Item) ∈ graph.items
      ↔ (⟨index⟩ : Id arena) ∈ graph.ids arena := by
    simp only [items, List.mem_flatMap, List.mem_map]
    constructor
    · rintro ⟨_, -, ⟨_⟩, member, same⟩
      cases same
      exact member
    · intro member
      exact ⟨arena, by cases arena <;> simp, ⟨index⟩, member, rfl⟩
  exact listed.trans (graph.mem_ids_iff ⟨index⟩)

theorem length_items (graph : Graph) : graph.items.length = graph.itemCount := by
  simp only [items, ids, itemCount, List.flatMap_cons, List.flatMap_nil, List.length_append,
    List.length_map, List.length_range, List.length_nil, Nat.add_zero, Nat.add_assoc]
  rfl

/-- The depth to which items are searched is always enough. -/
theorem length_items_lt (graph : Graph) : graph.items.length < graph.itemCount + 1 :=
  Nat.lt_succ_of_le (Nat.le_of_eq graph.length_items)

theorem filter_arena_items (graph : Graph) (arena : Arena) :
    graph.items.filter (fun item => item.arena = arena) = (graph.ids arena).map Id.item := by
  have piece (other : Arena) : ((graph.ids other).map Id.item).filter (fun item => item.arena = arena)
      = if other = arena then (graph.ids other).map Id.item else [] := by
    rw [List.filter_map]
    by_cases same : other = arena <;> simp [Function.comp_def, Id.item, same]
  simp only [items, List.flatMap_cons, List.flatMap_nil, List.filter_append, piece, List.filter_nil]
  cases arena <;> simp

theorem nodup_ids (graph : Graph) (arena : Arena) : (graph.ids arena).Nodup :=
  List.nodup_range.map fun _ _ same => Id.mk.inj same

theorem nodup_items (graph : Graph) : graph.items.Nodup := by
  refine List.nodup_flatMap.mpr ⟨fun arena _ => ?_, ?_⟩
  · exact (graph.nodup_ids arena).map fun _ _ => Id.item_injective
  · have arenas : [Arena.package, .world, .interface, .type].Nodup := by decide
    refine arenas.imp fun {first second} apart item inFirst inSecond => apart ?_
    obtain ⟨id, -, rfl⟩ := List.mem_map.mp inFirst
    obtain ⟨other, -, same⟩ := List.mem_map.mp inSecond
    exact (congrArg Item.arena same).symm

/-- An item has an entity exactly if it is within its arena. -/
theorem holds_iff_entity? (graph : Graph) (item : Item) :
    graph.Holds item ↔ ∃ entity, graph.entity? item.id = some entity := by
  rw [← Option.isSome_iff_exists]
  simp [Holds, entity?, size, Item.id]

theorem links_of_entity? {graph : Graph} {item : Item} {entity : Entity item.arena}
    (found : graph.entity? item.id = some entity) : graph.links item = entity.links := by
  unfold Graph.links
  rw [found]

theorem holds_of_links {graph : Graph} {item : Item} (links : graph.links item ≠ []) :
    graph.Holds item := by
  rw [holds_iff_entity?]
  cases found : graph.entity? item.id with
  | none => simp [Graph.links, found] at links
  | some entity => exact ⟨entity, rfl⟩

theorem mem_items_of_links {graph : Graph} (item : Item) (links : graph.links item ≠ []) :
    item ∈ graph.items :=
  (graph.mem_items_iff item).mpr (holds_of_links links)

/-- What the items of the graph refer to is within its arenas. -/
def IsClosed (graph : Graph) : Prop :=
  ∀ item, ∀ link ∈ graph.links item, graph.Holds link

theorem IsClosed.holds_link {graph : Graph} (closed : graph.IsClosed) {arena : Arena} {id : Id arena}
    {entity : Entity arena} (found : graph.entity? id = some entity) {link : Item}
    (member : link ∈ entity.links) : graph.Holds link := by
  have isEntity : graph.entity? id.item.id = some entity := found
  refine closed id.item link ?_
  rwa [links_of_entity? isEntity]

end WitGraph.Graph
