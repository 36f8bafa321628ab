/-
**Copying that needs nothing more.**

Where all that the contents refer to has a copy already, nothing is brought (`bring_of_copied`) and a
transfer copies exactly the items that are listed, in their order (`copies_transfer`).
-/

import WitGraph.Proofs.Copying.Transfer

namespace WitGraph

/-- A search from vertices that have been entered adds nothing. -/
theorem Search.visitAll_of_entered {α : Type} [Numbered α] {next : α → List α} {depth : Nat}
    {progress : Progress α} {vertices : List α}
    (entered : ∀ vertex ∈ vertices, progress.hasEntered vertex = true) :
    visitAll next depth progress vertices = progress := by
  induction vertices with
  | nil => rfl
  | cons first rest ih =>
    have same : visit next depth progress first = progress := by
      cases depth with
      | zero => rfl
      | succ depth => rw [visit, if_pos (entered first (List.mem_cons_self ..))]
    show visitAll next depth (visit next depth progress first) rest = progress
    rw [same]
    exact ih fun vertex inRest => entered vertex (List.mem_cons_of_mem _ inRest)

namespace Copier

variable {copier : Copier}

/-- Bringing items that have copies does nothing. -/
theorem bring_of_copied {items : List Item} (copied : ∀ item ∈ items, copier.Copied item) :
    copier.bring items = copier := by
  have found : copier.missing items = [] := by
    show (copier.search items).discovered.reverse = []
    rw [search, Search.visitAll_of_entered fun item member =>
      (hasEntered_copied_iff item).mpr (copied item member)]
    rfl
  unfold bring
  rw [found]
  rfl

/-- Filling a copy with contents that refer to copies makes no room. -/
theorem memo_populate {item : Item} {entity : Entity item.arena} (copied : copier.Copied item)
    (links : ∀ link ∈ entity.links, copier.Copied link) :
    (copier.populate item entity).memo = copier.memo := by
  unfold populate
  rw [reserve_of_copied copied, bring_of_copied links]
  rfl

theorem memo_foldl_populateFrom {contents : (item : Item) → Option (Entity item.arena)}
    {items : List Item} (copied : ∀ item ∈ items, copier.Copied item)
    (links : ∀ item ∈ items, ∀ entity, contents item = some entity →
      ∀ link ∈ entity.links, copier.Copied link) :
    (items.foldl (Graph.populateFrom contents) copier).memo = copier.memo := by
  induction items generalizing copier with
  | nil => rfl
  | cons first rest ih =>
    have step : (Graph.populateFrom contents copier first).memo = copier.memo := by
      unfold Graph.populateFrom
      cases given : contents first with
      | none => rfl
      | some entity =>
        exact memo_populate (copied first (List.mem_cons_self ..))
          (links first (List.mem_cons_self ..) entity given)
    rw [List.foldl_cons, ih, step]
    · intro item inRest
      exact (copied_of_memo_eq step).mpr (copied item (List.mem_cons_of_mem _ inRest))
    · intro item inRest entity given link isLink
      exact (copied_of_memo_eq step).mpr
        (links item (List.mem_cons_of_mem _ inRest) entity given link isLink)

/-- Room for new items is made in their order. -/
theorem copies_foldl_reserve {items : List Item} (distinct : items.Nodup)
    (fresh : ∀ item ∈ items, ¬ copier.Copied item) (held : ∀ item ∈ items, copier.source.Holds item)
    (arena : Arena) :
    (items.foldl reserve copier).copies arena
      = copier.copies arena ++ items.filter fun item => item.arena = arena := by
  induction items generalizing copier with
  | nil => simp
  | cons first rest ih =>
    obtain ⟨apart, distinctRest⟩ := List.nodup_cons.mp distinct
    have inside := held first (List.mem_cons_self ..)
    have copies : (copier.reserve first).copies arena
        = copier.copies arena ++ if first.arena = arena then [first] else [] := by
      rcases copier.reserve_cases first with ⟨-, present⟩ | ⟨entity, -, -, made⟩
      · exact absurd (present inside) (fresh first (List.mem_cons_self ..))
      · rw [made, copies_withRoom]
    rw [List.foldl_cons, ih distinctRest, copies, List.append_assoc, List.filter_cons]
    · by_cases same : first.arena = arena <;> simp [same]
    · intro item inRest present
      rcases copied_reserve_iff.mp present with before | ⟨rfl, -⟩
      · exact fresh item (List.mem_cons_of_mem _ inRest) before
      · exact apart inRest
    · intro item inRest
      rw [(copier.grows_reserve first).source]
      exact held item (List.mem_cons_of_mem _ inRest)

/-- **A transfer with contents that refer to listed items copies exactly these**, in their order. -/
theorem copies_transfer {graph : Graph} {items : List Item}
    {contents : (item : Item) → Option (Entity item.arena)} (distinct : items.Nodup)
    (held : ∀ item ∈ items, graph.Holds item)
    (links : ∀ item ∈ items, ∀ entity, contents item = some entity → entity.links ⊆ items)
    (arena : Arena) :
    (graph.transfer items contents).copies arena = items.filter fun item => item.arena = arena := by
  have fresh (item : Item) : ¬ Copied { source := graph } item := by
    rintro ⟨place, found⟩
    cases found
  have copied (item : Item) (member : item ∈ items) :
      (items.foldl reserve { source := graph }).Copied item :=
    copied_foldl_reserve_iff.mpr (Or.inr ⟨member, held item member⟩)
  have memo := memo_foldl_populateFrom copied fun item member entity given link isLink =>
    copied link (links item member entity given isLink)
  have made := copies_foldl_reserve distinct (fun item _ => fresh item) held arena
  show Copier.copies (items.foldl (Graph.populateFrom contents)
    (items.foldl reserve { source := graph })) arena = _
  unfold copies at made ⊢
  rw [memo, made]
  rfl

end Copier

end WitGraph
