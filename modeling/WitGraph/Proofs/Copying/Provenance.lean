/-
**Where copies come from.**

A transfer copies the items that are listed, and beyond them only what the contents of copies refer to.
So every copied item is at the end of a path that begins with a listed item and goes, at each step, from
an item to something that its copy refers to in the end (`FinalLink`): `transfer_led`.

A step that fills the copy of an item brings what the contents refer to and what this leads to by way of
items without a copy (`Misses.led`). Such items are not listed, since all listed items have copies from
the start, so their copies will be filled from the source.

The copies refer to each other accordingly, so such a path is also a path of links among the copies
(`Transfers.reaches`).
-/

import WitGraph.Proofs.Copying.Transfer

namespace WitGraph.Copier

variable {copier : Copier}

/-! ### What a step copies -/

theorem extends_populate {item : Item} (copied : copier.Copied item) (entity : Entity item.arena) :
    Extends copier (copier.populate item entity) := by
  unfold populate
  rw [reserve_of_copied copied]
  exact (copier.extends_bring entity.links).trans (extends_fill item entity)

theorem copied_or_missing_of_populate {item other : Item} (copied : copier.Copied item)
    {entity : Entity item.arena} (present : (copier.populate item entity).Copied other) :
    copier.Copied other ∨ other ∈ copier.missing entity.links := by
  unfold populate at present
  rw [reserve_of_copied copied] at present
  exact copied_or_missing_of_bring present

/-! ### Paths of final links -/

section Led

variable {graph : Graph} {items : List Item} {contents : (item : Item) → Option (Entity item.arena)}

/-- What the copy of an item refers to in the end of a transfer: it is filled with the contents given
for a listed item, and from the source for any other one. -/
def FinalLink (graph : Graph) (items : List Item) (contents : (item : Item) → Option (Entity item.arena))
    (item link : Item) : Prop :=
  (item ∈ items ∧ ∃ entity, contents item = some entity ∧ link ∈ entity.links)
    ∨ (item ∉ items ∧ link ∈ graph.links item)

/-- The item is led to from a listed one. -/
def IsLed (graph : Graph) (items : List Item) (contents : (item : Item) → Option (Entity item.arena))
    (item : Item) : Prop :=
  ∃ listed ∈ items, Relation.ReflTransGen (FinalLink graph items contents) listed item

theorem IsLed.tail {item link : Item} (led : IsLed graph items contents item)
    (step : FinalLink graph items contents item link) : IsLed graph items contents link := by
  obtain ⟨listed, isListed, path⟩ := led
  exact ⟨listed, isListed, path.tail step⟩

/-- What a step copies is led to from the item whose copy it fills. -/
theorem isLed_of_populate {first : Item} {entity : Entity first.arena} (listed : first ∈ items)
    (given : contents first = some entity) (source : copier.source = graph)
    (copied : ∀ item ∈ items, copier.Copied item)
    (led : ∀ item, copier.Copied item → IsLed graph items contents item) {item : Item}
    (present : (copier.populate first entity).Copied item) : IsLed graph items contents item := by
  rcases copied_or_missing_of_populate (copied first listed) present with early | missing
  · exact led item early
  obtain ⟨root, isRoot, freshRoot, path⟩ := (copier.misses_missing entity.links).led item missing
  have start : IsLed graph items contents root :=
    ⟨first, listed, .single (Or.inl ⟨listed, entity, given, isRoot⟩)⟩
  -- along the path, an item is led to and has no copy, so it is not listed
  have later : ¬ copier.Copied item ∧ IsLed graph items contents item := by
    clear missing present
    induction path with
    | refl => exact ⟨freshRoot, start⟩
    | tail _ step ih =>
      obtain ⟨isLink, fresh⟩ := step
      obtain ⟨freshBefore, ledBefore⟩ := ih
      rw [source] at isLink
      exact ⟨fresh, ledBefore.tail (Or.inr ⟨fun isListed => freshBefore (copied _ isListed), isLink⟩)⟩
  exact later.2

theorem isLed_of_foldl_populateFrom {rest : List Item} (within : ∀ item ∈ rest, item ∈ items)
    (source : copier.source = graph) (copied : ∀ item ∈ items, copier.Copied item)
    (led : ∀ item, copier.Copied item → IsLed graph items contents item) {item : Item}
    (present : (rest.foldl (Graph.populateFrom contents) copier).Copied item) :
    IsLed graph items contents item := by
  induction rest generalizing copier with
  | nil => exact led item present
  | cons first rest ih =>
    have listed := within first (List.mem_cons_self ..)
    have withinRest : ∀ item ∈ rest, item ∈ items := fun item inRest =>
      within item (List.mem_cons_of_mem _ inRest)
    rw [List.foldl_cons] at present
    cases given : contents first with
    | none =>
      have step : Graph.populateFrom contents copier first = copier := by
        rw [Graph.populateFrom, given]
      rw [step] at present
      exact ih withinRest source copied led present
    | some entity =>
      have step : Graph.populateFrom contents copier first = copier.populate first entity := by
        rw [Graph.populateFrom, given]
      rw [step] at present
      have extended := extends_populate (copied first listed) entity
      exact ih withinRest (extended.source.trans source)
        (fun item isListed => extended.copied (copied item isListed))
        (fun item present => isLed_of_populate listed given source copied led present) present

/-- **Whatever a transfer copies is led to from a listed item**, by way of what copies refer to. -/
theorem transfer_led (held : ∀ item ∈ items, graph.Holds item) {item : Item}
    (present : (graph.transfer items contents).Copied item) : IsLed graph items contents item := by
  refine isLed_of_foldl_populateFrom (fun item isListed => isListed)
    (grows_foldl_reserve items { source := graph }).source ?_ ?_ present
  · intro item isListed
    exact copied_foldl_reserve_iff.mpr (Or.inr ⟨isListed, held item isListed⟩)
  · intro item copied
    rcases copied_foldl_reserve_iff.mp copied with ⟨place, found⟩ | ⟨isListed, -⟩
    · cases found
    · exact ⟨item, isListed, .refl⟩

/-! ### Paths among the copies -/

/-- What the copy of an item refers to in the end has a copy as well, and this is what it refers to. -/
theorem Transfers.mem_links (transfers : Transfers graph items contents copier) {item link : Item}
    (copied : copier.Copied item) (step : FinalLink graph items contents item link) :
    copier.Copied link
      ∧ link.rename copier.renamed ∈ copier.target.links (item.rename copier.renamed) := by
  have filled : ∃ entity, copier.IsFilled item entity ∧ link ∈ entity.links := by
    rcases step with ⟨listed, entity, given, isLink⟩ | ⟨unlisted, isLink⟩
    · exact ⟨entity, transfers.listed item listed entity given, isLink⟩
    · obtain ⟨entity, isEntity, filled⟩ := (transfers.others item copied).resolve_left unlisted
      rw [Graph.links_of_entity? isEntity] at isLink
      exact ⟨entity, filled, isLink⟩
  obtain ⟨entity, filled, isLink⟩ := filled
  refine ⟨filled.links link isLink, ?_⟩
  have held : copier.target.entity? (item.rename copier.renamed).id
      = some (entity.rename copier.renamed) := filled.held
  have renamed := Entity.links_rename (transfers.tidy.separates filled.links fun _ _ => rfl)
  exact ((Graph.links_of_entity? held).trans renamed) ▸ List.mem_map_of_mem isLink

/-- A path from a copied item is a path of links among the copies. -/
theorem Transfers.reaches (transfers : Transfers graph items contents copier) {root item : Item}
    (copied : copier.Copied root)
    (path : Relation.ReflTransGen (FinalLink graph items contents) root item) :
    copier.Copied item
      ∧ Search.Reaches copier.target.links (root.rename copier.renamed)
        (item.rename copier.renamed) := by
  induction path with
  | refl => exact ⟨copied, .refl⟩
  | tail _ step ih =>
    obtain ⟨copiedBefore, pathBefore⟩ := ih
    obtain ⟨copiedThen, isLink⟩ := transfers.mem_links copiedBefore step
    exact ⟨copiedThen, pathBefore.tail isLink⟩

end Led

end WitGraph.Copier
