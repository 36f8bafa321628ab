/-
**Copying one item after another.**

Bringing items makes room for all that they reach before any of it is filled. This comes to the same as
bringing them one after another (`bring_append`): a search that goes on finds what a search finds that starts
with what has a copy by then (`missing_append`), and it does not matter whether there is room for other items
when copies are filled (`foldl_fillFromSource_foldl_reserve`).

So copies of definitions can be handed out one after another (`copyId`). The ids that are handed out stay
those of the copies, since bringing more does not move a copy (`IsSettled.renamed_bring`).
-/

import WitGraph.Proofs.Copying.Transfer

namespace WitGraph.Copier

variable {copier : Copier} {base : Graph} {item other : Item}

/-! ### Filling and making room -/

/-- The room that is made behind a copy is not touched when the copy is filled. -/
theorem fillFromSource_withRoom (tidy : copier.Tidy base) (copied : copier.Copied item)
    (links : ∀ link ∈ copier.source.links item, copier.Copied link) (entity : Entity other.arena)
    (fresh : copier.position? other = none) :
    (copier.withRoom other entity).fillFromSource item
      = (copier.fillFromSource item).withRoom other entity := by
  have extended : Extends copier (copier.withRoom other entity) := extends_withRoom fresh
  unfold fillFromSource
  rw [extended.source]
  cases found : copier.source.entity? item.id with
  | none => rfl
  | some contents =>
    have sameId : (copier.withRoom other entity).renamed item.id = copier.renamed item.id :=
      extended.renamed_eq copied
    have sameContents : contents.rename (copier.withRoom other entity).renamed
        = contents.rename copier.renamed := by
      refine Entity.rename_congr fun link inside => extended.renamed_eq (links link ?_)
      rwa [Graph.links_of_entity? found]
    have replaced := copier.target.setEntity_push (contents.rename copier.renamed) entity.placeholder
      (tidy.holds_renamed copied)
    show (copier.withRoom other entity).fill item contents
      = (copier.fill item contents).withRoom other entity
    unfold fill
    rw [sameId, sameContents]
    unfold withRoom
    rw [replaced, Graph.size_setEntity]

theorem reserve_of_fresh {entity : Entity item.arena} (fresh : copier.position? item = none)
    (isEntity : copier.source.entity? item.id = some entity) :
    copier.reserve item = copier.withRoom item entity := by
  unfold reserve
  rw [fresh, isEntity]
  rfl

/-- A copy can be filled before or after room is made for another one. -/
theorem fillFromSource_reserve (tidy : copier.Tidy base) (copied : copier.Copied item)
    (links : ∀ link ∈ copier.source.links item, copier.Copied link) (other : Item) :
    (copier.reserve other).fillFromSource item = (copier.fillFromSource item).reserve other := by
  have samePosition : (copier.fillFromSource item).position? other = copier.position? other := by
    rw [position?, memo_fillFromSource, position?]
  rcases copier.reserve_cases other with ⟨same, present⟩ | ⟨entity, fresh, isEntity, made⟩
  · rw [same]
    rcases (copier.fillFromSource item).reserve_cases other with
      ⟨sameThen, -⟩ | ⟨_, fresh, isEntity, -⟩
    · exact sameThen.symm
    · rw [source_fillFromSource] at isEntity
      obtain ⟨place, found⟩ := present ((Graph.holds_iff_entity? _ _).mpr ⟨_, isEntity⟩)
      rw [samePosition, found] at fresh
      cases fresh
  · have isEntityThen : (copier.fillFromSource item).source.entity? other.id = some entity := by
      rwa [source_fillFromSource]
    rw [made, fillFromSource_withRoom tidy copied links entity fresh,
      reserve_of_fresh (samePosition.trans fresh) isEntityThen]

/-- All of the items can be filled from the source: they have copies, and so does what they refer to. -/
def Fillable (copier : Copier) (found : List Item) : Prop :=
  ∀ item ∈ found, copier.Copied item ∧ ∀ link ∈ copier.source.links item, copier.Copied link

theorem Extends.fillable {after : Copier} (extended : Extends copier after) {found : List Item}
    (fillable : copier.Fillable found) : after.Fillable found := by
  intro item member
  obtain ⟨copied, links⟩ := fillable item member
  refine ⟨extended.copied copied, fun link inside => extended.copied (links link ?_)⟩
  rwa [← extended.source]

/-- Copies can be filled before or after room is made for others. -/
theorem foldl_fillFromSource_reserve {found : List Item} (tidy : copier.Tidy base)
    (fillable : copier.Fillable found) (other : Item) :
    found.foldl fillFromSource (copier.reserve other)
      = (found.foldl fillFromSource copier).reserve other := by
  induction found generalizing copier with
  | nil => rfl
  | cons first rest ih =>
    obtain ⟨copied, links⟩ := fillable first (List.mem_cons_self ..)
    have extended : Extends copier (copier.fillFromSource first) :=
      extends_of_memo_eq (memo_fillFromSource first) (source_fillFromSource first)
    have restFillable : (copier.fillFromSource first).Fillable rest :=
      extended.fillable fun item inRest => fillable item (List.mem_cons_of_mem _ inRest)
    rw [List.foldl_cons, fillFromSource_reserve tidy copied links,
      ih (tidy.fillFromSource copied) restFillable]
    rfl

/-- Filling some copies and making room for others can change places. -/
theorem foldl_fillFromSource_foldl_reserve {found : List Item} (tidy : copier.Tidy base)
    (fillable : copier.Fillable found) (others : List Item) :
    found.foldl fillFromSource (others.foldl reserve copier)
      = others.foldl reserve (found.foldl fillFromSource copier) := by
  induction others generalizing copier with
  | nil => rfl
  | cons first rest ih =>
    have grown := copier.grows_reserve first
    calc found.foldl fillFromSource (rest.foldl reserve (copier.reserve first))
        = rest.foldl reserve (found.foldl fillFromSource (copier.reserve first)) :=
          ih (grown.tidy tidy) (grown.toExtends.fillable fillable)
      _ = rest.foldl reserve ((found.foldl fillFromSource copier).reserve first) := by
          rw [foldl_fillFromSource_reserve tidy fillable]

/-! ### Bringing more -/

/-- There is room for what is missing and for what it refers to. -/
theorem fillable_missing (closed : copier.source.IsClosed) {items : List Item}
    (held : ∀ item ∈ items, copier.source.Holds item) :
    ((copier.missing items).foldl reserve copier).Fillable (copier.missing items) := by
  have misses := copier.misses_missing items
  have grown := grows_foldl_reserve (copier.missing items) copier
  have roomed (item : Item) (either : copier.Copied item ∨ item ∈ copier.missing items) :
      ((copier.missing items).foldl reserve copier).Copied item :=
    copied_foldl_reserve_iff.mpr
      (either.imp_right fun missing => ⟨missing, misses.holds closed held missing⟩)
  refine fun item missing => ⟨roomed item (Or.inr missing), fun link isLink => ?_⟩
  rw [grown.source] at isLink
  exact roomed link (misses.closed item missing link isLink)

/-- The search enters what has a copy in the end. -/
theorem hasEntered_search_iff (closed : copier.source.IsClosed) {items : List Item}
    (held : ∀ item ∈ items, copier.source.Holds item) :
    (copier.search items).hasEntered item = true ↔ (copier.bring items).Copied item := by
  rw [copied_bring_iff_missing]
  constructor
  · intro entered
    by_cases early : copier.Copied item
    · exact Or.inl early
    · have missing : item ∈ copier.missing items := mem_missing_iff.mpr ⟨entered, early⟩
      exact Or.inr ⟨missing, (copier.misses_missing items).holds closed held missing⟩
  · rintro (early | ⟨missing, -⟩)
    · exact (copier.explores_search items).kept item ((hasEntered_copied_iff item).mpr early)
    · exact (mem_missing_iff.mp missing).1

/-- A search that goes on finds what one finds that starts with what has a copy by then. -/
theorem missing_append (closed : copier.source.IsClosed) {first : List Item}
    (held : ∀ item ∈ first, copier.source.Holds item) (rest : List Item) :
    copier.missing (first ++ rest) = copier.missing first ++ (copier.bring first).missing rest := by
  let restart : Progress Item := { entered := (copier.bring first).copied }
  have same (item : Item) : (copier.search first).hasEntered item = restart.hasEntered item := by
    rw [Bool.eq_iff_iff, hasEntered_copied_iff, hasEntered_search_iff closed held]
  have alike : Search.GoesAlike (copier.search first) restart
      (Search.visitAll copier.source.links (copier.source.itemCount + 1) (copier.search first) rest)
      (Search.visitAll copier.source.links (copier.source.itemCount + 1) restart rest) :=
    Search.goesAlike_visitAll _ same rest
  have goesOn : copier.search (first ++ rest)
      = Search.visitAll copier.source.links (copier.source.itemCount + 1) (copier.search first) rest :=
    List.foldl_append
  have startsAgain : (copier.bring first).search rest
      = Search.visitAll copier.source.links (copier.source.itemCount + 1) restart rest := by
    rw [search, (copier.extends_bring first).source]
  obtain ⟨found, isFound, foundAgain⟩ := alike.recorded
  rw [← goesOn] at isFound
  rw [← startsAgain, List.append_nil] at foundAgain
  show (copier.search (first ++ rest)).discovered.reverse
    = (copier.search first).discovered.reverse ++ ((copier.bring first).search rest).discovered.reverse
  rw [isFound, foundAgain, List.reverse_append]

/-- **Bringing all items is bringing them one after another.** -/
theorem bring_append (tidy : copier.Tidy base) (closed : copier.source.IsClosed) {first : List Item}
    (held : ∀ item ∈ first, copier.source.Holds item) (rest : List Item) :
    copier.bring (first ++ rest) = (copier.bring first).bring rest := by
  have roomTidy := (grows_foldl_reserve (copier.missing first) copier).tidy tidy
  unfold bring
  rw [missing_append closed held, List.foldl_append, List.foldl_append,
    foldl_fillFromSource_foldl_reserve roomTidy (fillable_missing closed held)]
  rfl

/-! ### Ids that stay -/

/-- The item has a copy, or is not in the source and never gets one. -/
def IsSettled (copier : Copier) (item : Item) : Prop :=
  copier.source.Holds item → copier.Copied item

/-- What has been brought is settled. -/
theorem isSettled_bring {items : List Item} (member : item ∈ items) :
    (copier.bring items).IsSettled item := by
  intro held
  rw [(copier.extends_bring items).source] at held
  exact copied_bring_iff_missing.mpr
    (((copier.misses_missing items).covered item member).imp_right fun missing => ⟨missing, held⟩)

theorem IsSettled.bring (settled : copier.IsSettled item) (items : List Item) :
    (copier.bring items).IsSettled item := by
  intro held
  rw [(copier.extends_bring items).source] at held
  exact (copier.extends_bring items).copied (settled held)

/-- Bringing more does not change the id of a copy that is settled. -/
theorem IsSettled.renamed_bring (settled : copier.IsSettled item) (items : List Item) :
    (copier.bring items).renamed item.id = copier.renamed item.id := by
  by_cases copied : copier.Copied item
  · exact (copier.extends_bring items).renamed_eq copied
  · have apart : ¬ (copier.bring items).Copied item := fun brought =>
      copied ((copied_bring_iff_missing.mp brought).elim id fun new => settled new.2)
    rw [renamed_of_not_copied copied, renamed_of_not_copied apart]

/-! ### Handing out copies -/

/-- Copies a definition with everything that it refers to, and gives the id of the copy. -/
def copyId (id : TypeId) : StateM Copier TypeId :=
  modifyGet fun copier => (copier.copy id).swap

/-- The copier once definitions have been copied one after another. -/
def copyIds (copier : Copier) (ids : List TypeId) : Copier :=
  ids.foldl (fun copier id => (copier.copy id).1) copier

theorem IsSettled.renamed_copyIds (settled : copier.IsSettled item) (ids : List TypeId) :
    (copier.copyIds ids).renamed item.id = copier.renamed item.id := by
  induction ids generalizing copier with
  | nil => rfl
  | cons first rest ih =>
    calc ((copier.copy first).1.copyIds rest).renamed item.id
        = (copier.copy first).1.renamed item.id := ih (settled.bring [first.item])
      _ = copier.renamed item.id := settled.renamed_bring [first.item]

/-- The ids that are handed out are those of the copies in the end. -/
theorem run_mapM_copyId (ids : List TypeId) (copier : Copier) :
    (ids.mapM copyId).run copier = (ids.map (copier.copyIds ids).renamed, copier.copyIds ids) := by
  induction ids generalizing copier with
  | nil => rfl
  | cons first rest ih =>
    have settled : (copier.bring [first.item]).IsSettled first.item :=
      isSettled_bring (List.mem_singleton_self first.item)
    have kept : (copier.copyIds (first :: rest)).renamed first = (copier.copy first).2 :=
      settled.renamed_copyIds rest
    rw [List.map_cons, kept, List.mapM_cons]
    show (do
        let found ← rest.mapM copyId
        return (copier.copy first).2 :: found).run (copier.copy first).1 = _
    rw [StateT.run_bind, ih]
    rfl

/-- Copying definitions one after another is bringing them. -/
theorem copyIds_eq_bring (tidy : copier.Tidy base) (closed : copier.source.IsClosed) {ids : List TypeId}
    (held : ∀ id ∈ ids, copier.source.Holds id.item) :
    copier.copyIds ids = copier.bring (ids.map Id.item) := by
  induction ids generalizing copier with
  | nil => rfl
  | cons first rest ih =>
    have heldFirst : ∀ item ∈ [first.item], copier.source.Holds item := by
      simpa using held first (List.mem_cons_self ..)
    have brings := bring_brings tidy closed heldFirst
    calc (copier.bring [first.item]).copyIds rest
        = (copier.bring [first.item]).bring (rest.map Id.item) := by
          refine ih (brings.tidy tidy) (brings.source ▸ closed) fun id inRest => ?_
          rw [brings.source]
          exact held id (List.mem_cons_of_mem _ inRest)
      _ = copier.bring ((first :: rest).map Id.item) :=
          (bring_append tidy closed heldFirst (rest.map Id.item)).symm

end WitGraph.Copier
