/-
**Copying by recursion.**

`Copier.bring` makes room for all that is missing and then fills it. A copy can also be made item by item,
while the copies of other items are still under way (`Copier.copyInDepth`): an item without a copy gets
room, then what it refers to is copied in the same way, and in the end the room is filled. An item that
has room already is left alone, so on a circle the copy that is under way is referred to.

`foldl_copyInDepth` says that both leave the same copier behind, and `populate_eq_copyInDepth` that this
is so for given contents. One item is enough to see why (`bring_of_fresh`): what is missing is the item and
then what is missing once it has room, and the item can be filled before or after all others.
-/

import WitGraph.Proofs.Copying.Sequence
import WitGraph.Proofs.Copying.Settled

namespace WitGraph.Copier

variable {copier : Copier} {base : Graph} {item other : Item} {items : List Item}

/-- Copies an item and what it refers to, at most `depth` items deep. -/
def copyInDepth : Nat → Copier → Item → Copier
  | 0, copier, _ => copier
  | depth + 1, copier, item =>
    match copier.position? item, copier.source.entity? item.id with
    | none, some entity =>
      -- the room is on record before anything else is copied
      (entity.links.foldl (copyInDepth depth) (copier.reserve item)).fill item entity
    | _, _ => copier

/-! ### Filling in any order -/

theorem fillFromSource_of_entity? {entity : Entity item.arena}
    (isEntity : copier.source.entity? item.id = some entity) :
    copier.fillFromSource item = copier.fill item entity := by
  unfold fillFromSource
  rw [isEntity]

theorem fillFromSource_of_absent (absent : copier.source.entity? item.id = none) :
    copier.fillFromSource item = copier := by
  unfold fillFromSource
  rw [absent]

/-- Two copies can be filled in either order. -/
theorem fillFromSource_comm (tidy : copier.Tidy base) (copied : copier.Copied item)
    (otherCopied : copier.Copied other) (differ : other ≠ item) :
    (copier.fillFromSource item).fillFromSource other
      = (copier.fillFromSource other).fillFromSource item := by
  have apart : (copier.renamed other.id).item ≠ (copier.renamed item.id).item := fun same =>
    differ (tidy.renamed_injective otherCopied copied same)
  have sameSource (filled sought : Item) : (copier.fillFromSource filled).source.entity? sought.id
      = copier.source.entity? sought.id := by rw [source_fillFromSource]
  cases found : copier.source.entity? item.id with
  | none =>
    rw [fillFromSource_of_absent found, fillFromSource_of_absent ((sameSource other item).trans found)]
  | some entity =>
    cases otherFound : copier.source.entity? other.id with
    | none =>
      rw [fillFromSource_of_absent otherFound,
        fillFromSource_of_absent ((sameSource item other).trans otherFound)]
    | some otherEntity =>
      rw [fillFromSource_of_entity? ((sameSource item other).trans otherFound),
        fillFromSource_of_entity? ((sameSource other item).trans found),
        fillFromSource_of_entity? found, fillFromSource_of_entity? otherFound]
      exact congrArg (fun target => { copier with target })
        (copier.target.setEntity_comm (entity.rename copier.renamed)
          (otherEntity.rename copier.renamed) apart)

/-- A copy can be filled before or after others. -/
theorem foldl_fillFromSource_comm (tidy : copier.Tidy base) (copied : copier.Copied item)
    (othersCopied : ∀ other ∈ items, copier.Copied other) (apart : item ∉ items) :
    items.foldl fillFromSource (copier.fillFromSource item)
      = (items.foldl fillFromSource copier).fillFromSource item := by
  induction items generalizing copier with
  | nil => rfl
  | cons first rest ih =>
    have firstCopied := othersCopied first (List.mem_cons_self ..)
    have differ : first ≠ item := fun same => apart (same ▸ List.mem_cons_self ..)
    have copiedThen (other : Item) : (copier.fillFromSource first).Copied other ↔ copier.Copied other :=
      copied_of_memo_eq (memo_fillFromSource first)
    rw [List.foldl_cons, fillFromSource_comm tidy copied firstCopied differ]
    refine ih (tidy.fillFromSource firstCopied) ((copiedThen item).mpr copied) (fun other inRest => ?_)
      fun inRest => apart (List.mem_cons_of_mem _ inRest)
    exact (copiedThen other).mpr (othersCopied other (List.mem_cons_of_mem _ inRest))

/-! ### Bringing one item -/

/-- How many items of the source have no copy. -/
def uncopied (copier : Copier) : Nat :=
  ({ entered := copier.copied } : Progress Item).unentered copier.source.items

theorem uncopied_le {after : Copier} (extended : Extends copier after) :
    after.uncopied ≤ copier.uncopied := by
  unfold uncopied
  rw [extended.source]
  refine Progress.unentered_le _ fun item entered => ?_
  exact (hasEntered_copied_iff item).mpr (extended.copied ((hasEntered_copied_iff item).mp entered))

theorem uncopied_le_itemCount (copier : Copier) : copier.uncopied ≤ copier.source.itemCount :=
  copier.source.length_items ▸ List.countP_le_length

/-- What has entered the search from an item are the copies that there are once it has room. -/
theorem hasEntered_enter_copied (held : copier.source.Holds item) (other : Item) :
    (Progress.enter { entered := copier.copied } item).hasEntered other
      = ({ entered := (copier.reserve item).copied } : Progress Item).hasEntered other := by
  rw [Bool.eq_iff_iff, Progress.hasEntered_enter_iff, hasEntered_copied_iff, hasEntered_copied_iff,
    copied_reserve_iff, or_comm]
  simp [held]

theorem uncopied_reserve_lt (fresh : ¬ copier.Copied item) (held : copier.source.Holds item) :
    (copier.reserve item).uncopied < copier.uncopied := by
  have listed : item ∈ copier.source.items := (Graph.mem_items_iff _ _).mpr held
  refine Nat.lt_of_le_of_lt ?_ (Progress.unentered_enter_lt listed fun entered =>
    fresh ((hasEntered_copied_iff item).mp entered))
  unfold uncopied
  rw [(copier.grows_reserve item).source]
  exact Progress.unentered_le _ fun other entered => hasEntered_enter_copied held other ▸ entered

/-- **What is missing from an item without a copy** is the item, and then what is missing from what it
refers to once there is room for it. -/
theorem missing_of_fresh (fresh : ¬ copier.Copied item) (held : copier.source.Holds item) :
    copier.missing [item] = item :: (copier.reserve item).missing (copier.source.links item) := by
  let start : Progress Item := { entered := copier.copied }
  let restart : Progress Item := { entered := (copier.reserve item).copied }
  have notEntered : ¬ start.hasEntered item = true := fun entered =>
    fresh ((hasEntered_copied_iff item).mp entered)
  -- the search from the item has one level less left for what follows it, which is enough
  have enough : (start.enter item).unentered copier.source.items < copier.source.itemCount :=
    Nat.lt_of_lt_of_le (Progress.unentered_enter_lt ((Graph.mem_items_iff _ _).mpr held) notEntered)
      copier.uncopied_le_itemCount
  have entersFirst : copier.search [item] = (Search.visitAll copier.source.links
      (copier.source.itemCount + 1) (start.enter item) (copier.source.links item)).finish item := by
    show Search.visit copier.source.links (copier.source.itemCount + 1) start item = _
    rw [Search.visitAll_succ Graph.mem_items_of_links _ _ _ enough, Search.visit, if_neg notEntered]
    rfl
  have alike : Search.GoesAlike (start.enter item) restart
      (Search.visitAll copier.source.links (copier.source.itemCount + 1) (start.enter item)
        (copier.source.links item))
      (Search.visitAll copier.source.links (copier.source.itemCount + 1) restart
        (copier.source.links item)) :=
    Search.goesAlike_visitAll _ (hasEntered_enter_copied held) _
  have startsAgain : (copier.reserve item).search (copier.source.links item)
      = Search.visitAll copier.source.links (copier.source.itemCount + 1) restart
        (copier.source.links item) := by
    rw [search, (copier.grows_reserve item).source]
  obtain ⟨found, isFound, foundAgain⟩ := alike.recorded
  rw [← startsAgain, List.append_nil] at foundAgain
  show (copier.search [item]).discovered.reverse
    = item :: ((copier.reserve item).search (copier.source.links item)).discovered.reverse
  rw [entersFirst, Progress.finish, isFound, foundAgain]
  exact List.reverse_append

/-- **An item without a copy gets room, then what it refers to is brought, and then it is filled.** -/
theorem bring_of_fresh (tidy : copier.Tidy base) (closed : copier.source.IsClosed)
    (fresh : ¬ copier.Copied item) {entity : Entity item.arena}
    (isEntity : copier.source.entity? item.id = some entity) :
    copier.bring [item] = copier.populate item entity := by
  have held : copier.source.Holds item := (Graph.holds_iff_entity? _ _).mpr ⟨entity, isEntity⟩
  have isLinks : copier.source.links item = entity.links := Graph.links_of_entity? isEntity
  have grown := copier.grows_reserve item
  have heldLinks : ∀ link ∈ entity.links, (copier.reserve item).source.Holds link := by
    intro link isLink
    rw [grown.source]
    exact closed item link (isLinks ▸ isLink)
  have misses := (copier.reserve item).misses_missing entity.links
  have room := grows_foldl_reserve ((copier.reserve item).missing entity.links) (copier.reserve item)
  have copied : (copier.reserve item).Copied item := copied_reserve_iff.mpr (Or.inr ⟨rfl, held⟩)
  have othersCopied (other : Item) (missing : other ∈ (copier.reserve item).missing entity.links) :
      (((copier.reserve item).missing entity.links).foldl reserve (copier.reserve item)).Copied other :=
    copied_foldl_reserve_iff.mpr
      (Or.inr ⟨missing, misses.holds (grown.source ▸ closed) heldLinks missing⟩)
  calc copier.bring [item]
      = ((copier.reserve item).missing entity.links).foldl fillFromSource
          ((((copier.reserve item).missing entity.links).foldl reserve
            (copier.reserve item)).fillFromSource item) := by
        rw [bring, missing_of_fresh fresh held, isLinks]
        rfl
    _ = ((copier.reserve item).bring entity.links).fillFromSource item :=
        foldl_fillFromSource_comm (room.tidy (grown.tidy tidy)) (room.copied copied) othersCopied
          fun missing => misses.fresh item missing copied
    _ = copier.populate item entity := by
        refine fillFromSource_of_entity? ?_
        rwa [((copier.reserve item).extends_bring entity.links).source, grown.source]

/-! ### The recursion -/

/-- **Copying by recursion brings items**, if it may go deep enough. -/
theorem foldl_copyInDepth (tidy : copier.Tidy base) (closed : copier.source.IsClosed)
    (held : ∀ item ∈ items, copier.source.Holds item) {depth : Nat} (enough : copier.uncopied < depth) :
    items.foldl (copyInDepth depth) copier = copier.bring items := by
  -- the outer induction goes from an item to what it refers to, the inner one from item to item
  induction depth generalizing copier items with
  | zero => exact absurd enough (Nat.not_lt_zero _)
  | succ depth ih =>
    induction items generalizing copier with
    | nil => rfl
    | cons first rest restIh =>
      have heldFirst := held first (List.mem_cons_self ..)
      have single : copyInDepth (depth + 1) copier first = copier.bring [first] := by
        by_cases copied : copier.Copied first
        · obtain ⟨place, found⟩ := copied
          rw [copyInDepth, found, bring_of_copied fun item member =>
            List.mem_singleton.mp member ▸ ⟨place, found⟩]
        · obtain ⟨entity, isEntity⟩ := (Graph.holds_iff_entity? _ _).mp heldFirst
          have fresh : copier.position? first = none :=
            Option.eq_none_iff_forall_ne_some.mpr fun place found => copied ⟨place, found⟩
          have grown := copier.grows_reserve first
          have fewer := uncopied_reserve_lt copied heldFirst
          rw [bring_of_fresh tidy closed copied isEntity, copyInDepth, fresh, isEntity]
          refine congrArg (Copier.fill · first entity) ?_
          refine ih (grown.tidy tidy) (grown.source ▸ closed) (fun link isLink => ?_) (by omega)
          rw [grown.source]
          exact closed first link (Graph.links_of_entity? isEntity ▸ isLink)
      have heldSingle : ∀ item ∈ [first], copier.source.Holds item := by
        simpa using heldFirst
      have brings := bring_brings tidy closed heldSingle
      have later := restIh (brings.tidy tidy) (brings.source ▸ closed)
        (fun item inRest => brings.source ▸ held item (List.mem_cons_of_mem _ inRest))
        (Nat.lt_of_le_of_lt (uncopied_le brings.toExtends) enough)
      rw [List.foldl_cons, single, later]
      exact (bring_append tidy closed heldSingle rest).symm

/-- **Contents can be copied by recursion**, whatever circles lead back to their item. -/
theorem populate_eq_copyInDepth (tidy : copier.Tidy base) (closed : copier.source.IsClosed)
    {entity : Entity item.arena} (held : ∀ link ∈ entity.links, copier.source.Holds link) :
    copier.populate item entity
      = (entity.links.foldl (copyInDepth (copier.source.itemCount + 1)) (copier.reserve item)).fill
          item entity := by
  have grown := copier.grows_reserve item
  refine congrArg (Copier.fill · item entity) (foldl_copyInDepth (grown.tidy tidy)
    (grown.source ▸ closed) (fun link isLink => grown.source ▸ held link isLink) ?_).symm
  exact Nat.lt_succ_of_le (Nat.le_trans (uncopied_le grown.toExtends) copier.uncopied_le_itemCount)

end WitGraph.Copier
