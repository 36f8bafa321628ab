/-
**Where the copies of items are.**

A copier keeps its memo and the arenas of its target in step (`Tidy`): behind what the target held
from the start, which stays as it is, the copies of an arena stand in the order in which room was made
for them, one for each item. Making room adds one copy at the end of its arena (`Tidy.withRoom`) and
moves none (`Extends`).
-/

import Mathlib.Data.List.Nodup
import WitGraph.Proofs.Arenas

namespace WitGraph.Copier

variable {copier before after : Copier} {base : Graph}

/-! ### Copies and their places -/

/-- The item has a copy. -/
def Copied (copier : Copier) (item : Item) : Prop :=
  ∃ position, copier.position? item = some position

/-- The items of an arena that have a copy, in the order in which room was made for them. -/
def copies (copier : Copier) (arena : Arena) : List Item :=
  (copier.memo.map Prod.fst).reverse.filter fun item => item.arena = arena

/-- The copies of an arena stand in the target in their order, one for each item, behind the items of
the graph `base`, which are as they were with the names of the packages. -/
structure Tidy (copier : Copier) (base : Graph := {}) : Prop where
  sizeBehind : ∀ arena,
    copier.target.size arena = base.size arena + (copier.copies arena).length
  positionBehind : ∀ item place, copier.position? item = some place
    ↔ ∃ offset, place = base.size item.arena + offset
      ∧ (copier.copies item.arena)[offset]? = some item
  kept : ∀ {arena : Arena} (id : Id arena), base.Holds id.item →
    copier.target.entity? id = base.entity? id
  names : copier.target.packageNames = base.packageNames

/-- Nothing is lost from one copier to the next: the copies stay where they are. -/
structure Extends (before after : Copier) : Prop where
  source : after.source = before.source
  position : ∀ item place, before.position? item = some place → after.position? item = some place

theorem Extends.refl (copier : Copier) : Extends copier copier := ⟨rfl, fun _ _ found => found⟩

theorem Extends.trans {between : Copier} (first : Extends before between)
    (second : Extends between after) : Extends before after where
  source := second.source.trans first.source
  position item place found := second.position item place (first.position item place found)

theorem Extends.copied (extended : Extends before after) {item : Item}
    (copied : before.Copied item) : after.Copied item := by
  obtain ⟨place, found⟩ := copied
  exact ⟨place, extended.position item place found⟩

theorem renamed_of_position {arena : Arena} (id : Id arena) {place : Nat}
    (found : copier.position? id.item = some place) : copier.renamed id = ⟨place⟩ := by
  unfold renamed
  rw [found]

theorem renamed_of_not_copied {item : Item} (apart : ¬ copier.Copied item) :
    copier.renamed item.id = item.id := by
  cases found : copier.position? item with
  | none =>
    unfold renamed
    rw [show copier.position? item.id.item = none from found]
  | some place => exact absurd ⟨place, found⟩ apart

/-- A copy keeps its id. -/
theorem Extends.renamed_eq (extended : Extends before after) {item : Item}
    (copied : before.Copied item) : after.renamed item.id = before.renamed item.id := by
  obtain ⟨place, found⟩ := copied
  rw [renamed_of_position item.id found,
    renamed_of_position item.id (extended.position item place found)]

/-! ### Making room -/

/-- The copier once there is room for an item at the end of its arena. -/
def withRoom (copier : Copier) (item : Item) (entity : Entity item.arena) : Copier where
  source := copier.source
  target := copier.target.push item.arena entity.placeholder
  memo := (item, copier.target.size item.arena) :: copier.memo

/-- Making room for an item means that it has a copy already, that it is not in the source, or that
its arena grows by one. -/
theorem reserve_cases (copier : Copier) (item : Item) :
    (copier.reserve item = copier ∧ (copier.source.Holds item → copier.Copied item))
      ∨ ∃ entity, copier.position? item = none ∧ copier.source.entity? item.id = some entity
        ∧ copier.reserve item = copier.withRoom item entity := by
  unfold reserve
  cases found : copier.position? item with
  | some place => exact Or.inl ⟨rfl, fun _ => ⟨place, found⟩⟩
  | none =>
    cases held : copier.source.entity? item.id with
    | some entity => exact Or.inr ⟨entity, rfl, rfl, rfl⟩
    | none =>
      refine Or.inl ⟨rfl, fun inside => ?_⟩
      obtain ⟨entity, isEntity⟩ := (Graph.holds_iff_entity? _ _).mp inside
      rw [held] at isEntity
      cases isEntity

theorem reserve_of_copied {item : Item} (copied : copier.Copied item) :
    copier.reserve item = copier := by
  obtain ⟨place, found⟩ := copied
  unfold reserve
  rw [found]

/-- The item with new room has the last place, and the others keep theirs. -/
theorem position?_withRoom (item other : Item) (entity : Entity item.arena) :
    (copier.withRoom item entity).position? other
      = if other = item then some (copier.target.size item.arena) else copier.position? other := by
  by_cases same : other = item
  · subst same
    simp [position?, withRoom]
  · have differ : (other == item) = false := by simpa using same
    simp [position?, withRoom, List.lookup_cons, differ, same]

/-- The item with new room comes last in its arena. -/
theorem copies_withRoom (item : Item) (entity : Entity item.arena) (arena : Arena) :
    (copier.withRoom item entity).copies arena
      = copier.copies arena ++ if item.arena = arena then [item] else [] := by
  by_cases same : item.arena = arena <;> simp [copies, withRoom, List.filter_append, same]

theorem extends_withRoom {item : Item} {entity : Entity item.arena}
    (fresh : copier.position? item = none) : Extends copier (copier.withRoom item entity) where
  source := rfl
  position other place found := by
    have differ : other ≠ item := by
      rintro rfl
      rw [fresh] at found
      cases found
    rw [position?_withRoom, if_neg differ, found]

theorem getElem?_concat_eq_some_iff {α : Type} {list : List α} {last element : α} {place : Nat} :
    (list ++ [last])[place]? = some element
      ↔ list[place]? = some element ∨ (place = list.length ∧ last = element) := by
  rcases Nat.lt_trichotomy place list.length with before | atEnd | after
  · have differ : place ≠ list.length := Nat.ne_of_lt before
    rw [List.getElem?_append_left before]
    simp [differ]
  · rw [atEnd, List.getElem?_concat_length, List.getElem?_eq_none (Nat.le_refl _)]
    simp
  · have outside : (list ++ [last]).length ≤ place := by
      rw [List.length_append, List.length_singleton]
      omega
    have differ : place ≠ list.length := Nat.ne_of_gt after
    rw [List.getElem?_eq_none outside, List.getElem?_eq_none (by omega)]
    simp [differ]

/-- Making room keeps the copies in step. -/
theorem Tidy.withRoom (tidy : copier.Tidy base) {item : Item} {entity : Entity item.arena}
    (fresh : copier.position? item = none) : (copier.withRoom item entity).Tidy base where
  sizeBehind arena := by
    rw [copies_withRoom, List.length_append, ← Nat.add_assoc, ← tidy.sizeBehind]
    show (copier.target.push item.arena entity.placeholder).size arena = _
    rw [Graph.size_push]
    by_cases same : item.arena = arena <;> simp [same]
  positionBehind other place := by
    have absent (offset : Nat) : (copier.copies item.arena)[offset]? ≠ some item := by
      intro found
      have placed := (tidy.positionBehind item _).mpr ⟨offset, rfl, found⟩
      rw [fresh] at placed
      cases placed
    have before := tidy.positionBehind other place
    rw [position?_withRoom, copies_withRoom]
    -- the new item stands behind all others of its arena, so theirs are the same places
    by_cases same : other = item
    · subst same
      rw [if_pos rfl, if_pos rfl, Option.some.injEq, tidy.sizeBehind]
      simp only [getElem?_concat_eq_some_iff, absent, false_or, and_true]
      constructor
      · rintro rfl
        exact ⟨_, rfl, rfl⟩
      · rintro ⟨_, rfl, rfl⟩
        rfl
    · rw [if_neg same, before]
      refine exists_congr fun offset => and_congr_right fun _ => ?_
      by_cases sameArena : item.arena = other.arena
      · rw [if_pos sameArena, getElem?_concat_eq_some_iff]
        exact (or_iff_left fun found => same found.2.symm).symm
      · rw [if_neg sameArena, List.append_nil]
  kept id held := by
    have inside : copier.target.Holds id.item :=
      Nat.lt_of_lt_of_le held (tidy.sizeBehind _ ▸ Nat.le_add_right ..)
    exact (Graph.entity?_push_of_lt _ _ inside).trans (tidy.kept id held)
  names := (Graph.packageNames_setArena _ _ _).trans tidy.names

/-- An item has a copy after room has been made if it had one or got it. -/
theorem copied_reserve_iff {item other : Item} :
    (copier.reserve item).Copied other
      ↔ copier.Copied other ∨ (other = item ∧ copier.source.Holds item) := by
  rcases copier.reserve_cases item with ⟨same, present⟩ | ⟨entity, fresh, held, made⟩
  · rw [same, or_iff_left_of_imp]
    rintro ⟨rfl, inside⟩
    exact present inside
  · have inside : copier.source.Holds item := (Graph.holds_iff_entity? _ _).mpr ⟨entity, held⟩
    rw [made, Copied, Copied]
    simp only [position?_withRoom]
    by_cases same : other = item
    · simp [same, inside]
    · simp [same]

/-! ### Originals and copies -/

theorem arena_of_mem_copies {arena : Arena} {item : Item} (member : item ∈ copier.copies arena) :
    item.arena = arena := by
  simpa using (List.mem_filter.mp member).2

/-- The position of the copy of an item. An item without a copy gets a position past the end. -/
def place (copier : Copier) : Renaming := fun {arena} id =>
  ⟨(copier.copies arena).idxOf id.item⟩

/-- The item whose copy is at a position. -/
def origin (copier : Copier) : Renaming := fun {arena} id =>
  ⟨((copier.copies arena)[id.index]?.map Item.index).getD id.index⟩

namespace Tidy

/-! ### Distinct copies -/

section Behind

variable (tidy : copier.Tidy base)
include tidy

theorem exists_copy {item : Item} (copied : copier.Copied item) :
    ∃ offset, copier.renamed item.id = ⟨base.size item.arena + offset⟩
      ∧ (copier.copies item.arena)[offset]? = some item := by
  obtain ⟨place, found⟩ := copied
  obtain ⟨offset, rfl, listed⟩ := (tidy.positionBehind item place).mp found
  exact ⟨offset, renamed_of_position item.id found, listed⟩

theorem position_of_copies {arena : Arena} {item : Item} {offset : Nat}
    (found : (copier.copies arena)[offset]? = some item) :
    copier.position? item = some (base.size arena + offset) := by
  have isArena := arena_of_mem_copies (List.mem_of_getElem? found)
  subst isArena
  exact (tidy.positionBehind item _).mpr ⟨offset, rfl, found⟩

theorem nodup_copies (arena : Arena) : (copier.copies arena).Nodup := by
  refine List.nodup_iff_getElem?_ne_getElem?.mpr fun first second before inside same => ?_
  have found : (copier.copies arena)[second]? = some (copier.copies arena)[second] :=
    List.getElem?_eq_getElem inside
  have atSecond := tidy.position_of_copies found
  rw [tidy.position_of_copies (same.trans found)] at atSecond
  have samePlace := Option.some.inj atSecond
  omega

theorem holds_renamed {item : Item} (copied : copier.Copied item) :
    copier.target.Holds (copier.renamed item.id).item := by
  obtain ⟨offset, placed, listed⟩ := tidy.exists_copy copied
  obtain ⟨inside, -⟩ := List.getElem?_eq_some_iff.mp listed
  rw [placed]
  show base.size item.arena + offset < copier.target.size item.arena
  rw [tidy.sizeBehind]
  omega

/-- A copy stands behind what the target held from the start. -/
theorem not_holds_renamed {item : Item} (copied : copier.Copied item) :
    ¬ base.Holds (copier.renamed item.id).item := by
  obtain ⟨offset, placed, -⟩ := tidy.exists_copy copied
  rw [placed]
  exact Nat.not_lt.mpr (Nat.le_add_right ..)

/-- Different items have their copies in different places. -/
theorem renamed_injective {first second : Item} (firstCopied : copier.Copied first)
    (secondCopied : copier.Copied second)
    (same : (copier.renamed first.id).item = (copier.renamed second.id).item) : first = second := by
  obtain ⟨offset, placed, listed⟩ := tidy.exists_copy firstCopied
  obtain ⟨other, otherPlaced, otherListed⟩ := tidy.exists_copy secondCopied
  rw [placed, otherPlaced] at same
  obtain ⟨sameArena, samePlace⟩ := Item.mk.inj same
  change first.arena = second.arena at sameArena
  simp only [sameArena] at listed samePlace
  have sameOffset : offset = other := by omega
  subst sameOffset
  exact Option.some.inj (listed.symm.trans otherListed)

/-- What stands behind the items from the start is a copy. -/
theorem exists_of_holds {place : Item} (inside : copier.target.Holds place)
    (new : ¬ base.Holds place) :
    ∃ item, copier.Copied item ∧ (copier.renamed item.id).item = place := by
  obtain ⟨arena, index⟩ := place
  change index < copier.target.size arena at inside
  replace new : base.size arena ≤ index := Nat.not_lt.mp new
  rw [tidy.sizeBehind] at inside
  have listed : (copier.copies arena)[index - base.size arena]?
      = some (copier.copies arena)[index - base.size arena] := List.getElem?_eq_getElem (by omega)
  have isArena := arena_of_mem_copies (List.mem_of_getElem? listed)
  have placed := tidy.position_of_copies listed
  generalize (copier.copies arena)[index - base.size arena] = item at isArena placed
  subst isArena
  refine ⟨item, ⟨_, placed⟩, ?_⟩
  rw [renamed_of_position item.id placed]
  show (⟨item.arena, _⟩ : Item) = _
  rw [Nat.add_sub_cancel' new]

end Behind

/-! ### Copies in an empty target -/

variable (tidy : copier.Tidy)
include tidy

theorem size (arena : Arena) : copier.target.size arena = (copier.copies arena).length := by
  rw [tidy.sizeBehind, Graph.size_empty, Nat.zero_add]

theorem position_of_getElem? {arena : Arena} {item : Item} {place : Nat}
    (found : (copier.copies arena)[place]? = some item) : copier.position? item = some place := by
  rw [tidy.position_of_copies found, Graph.size_empty, Nat.zero_add]

theorem getElem?_of_position {item : Item} {place : Nat}
    (found : copier.position? item = some place) :
    (copier.copies item.arena)[place]? = some item := by
  obtain ⟨offset, rfl, listed⟩ := (tidy.positionBehind item place).mp found
  rwa [Graph.size_empty, Nat.zero_add]

/-- A copy is renamed to its place. -/
theorem place_eq_renamed {arena : Arena} {id : Id arena} (copied : copier.Copied id.item) :
    copier.place id = copier.renamed id := by
  obtain ⟨position, found⟩ := copied
  have listed : (copier.copies arena)[position]? = some id.item := tidy.getElem?_of_position found
  obtain ⟨inside, same⟩ := List.getElem?_eq_some_iff.mp listed
  rw [renamed_of_position id found, place, ← same, (tidy.nodup_copies arena).idxOf_getElem]

/-- What stands in the target is the copy of its original. -/
theorem getElem?_copies {arena : Arena} {id : Id arena} (inside : copier.target.Holds id.item) :
    (copier.copies arena)[id.index]? = some (copier.origin id).item := by
  change id.index < copier.target.size arena at inside
  rw [tidy.size] at inside
  have found : (copier.copies arena)[id.index]? = some (copier.copies arena)[id.index] :=
    List.getElem?_eq_getElem inside
  have inArena := arena_of_mem_copies (List.mem_of_getElem? found)
  rw [found, origin, found]
  generalize (copier.copies arena)[id.index] = item at inArena
  subst inArena
  rfl

theorem copied_origin {arena : Arena} {id : Id arena} (inside : copier.target.Holds id.item) :
    copier.Copied (copier.origin id).item :=
  ⟨id.index, tidy.position_of_getElem? (tidy.getElem?_copies inside)⟩

theorem place_origin {arena : Arena} {id : Id arena} (inside : copier.target.Holds id.item) :
    copier.place (copier.origin id) = id := by
  obtain ⟨inList, same⟩ := List.getElem?_eq_some_iff.mp (tidy.getElem?_copies inside)
  rw [place, ← same, (tidy.nodup_copies arena).idxOf_getElem]

theorem origin_place {arena : Arena} {id : Id arena}
    (inside : copier.target.Holds (copier.place id).item) : copier.origin (copier.place id) = id := by
  have found := tidy.getElem?_copies inside
  obtain ⟨inList, same⟩ := List.getElem?_eq_some_iff.mp found
  refine Id.item_injective (same.symm.trans ?_)
  exact List.getElem_idxOf inList

end Tidy

end WitGraph.Copier
