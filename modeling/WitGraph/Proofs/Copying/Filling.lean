/-
**Copies that are filled.**

`IsFilled` says that the copy of an item holds given contents and that whatever these refer to has a
copy. A copy stays filled while room is made for others (`grows_foldl_reserve`) and while others are
filled (`IsFilled.fill`, `IsFilled.foldl_fillFromSource`).
-/

import WitGraph.Proofs.Copying.Places
import WitGraph.Proofs.Renaming

namespace WitGraph.Copier

variable {copier before after : Copier} {base : Graph}

/-! ### Copies that are filled -/

/-- The copy of the item holds the entity, and what the entity refers to has a copy. -/
structure IsFilled (copier : Copier) (item : Item) (entity : Entity item.arena) : Prop where
  copied : copier.Copied item
  links : ∀ link ∈ entity.links, copier.Copied link
  held : copier.target.entity? (copier.renamed item.id) = some (entity.rename copier.renamed)

/-- A copy stays filled as long as its place in the target is not touched. -/
theorem IsFilled.of_extends {item : Item} {entity : Entity item.arena}
    (filled : before.IsFilled item entity) (extended : Extends before after)
    (untouched : after.target.entity? (before.renamed item.id)
      = before.target.entity? (before.renamed item.id)) : after.IsFilled item entity where
  copied := extended.copied filled.copied
  links link member := extended.copied (filled.links link member)
  held := by
    have agree : Renaming.Agree before.renamed after.renamed entity.links := fun link member =>
      (extended.renamed_eq (filled.links link member)).symm
    rw [extended.renamed_eq filled.copied, untouched, filled.held, Entity.rename_congr agree]

/-- The second copier has all that the first one has: its copies, in step and filled. -/
structure Grows (before after : Copier) : Prop extends Extends before after where
  tidy : ∀ {base}, before.Tidy base → after.Tidy base
  filled : ∀ (item : Item) (entity : Entity item.arena), before.IsFilled item entity →
    after.IsFilled item entity

theorem Grows.refl (copier : Copier) : Grows copier copier :=
  ⟨.refl copier, fun tidy => tidy, fun _ _ filled => filled⟩

theorem Grows.trans {between : Copier} (first : Grows before between)
    (second : Grows between after) : Grows before after where
  toExtends := first.toExtends.trans second.toExtends
  tidy aligned := second.tidy (first.tidy aligned)
  filled item entity filled := second.filled item entity (first.filled item entity filled)

theorem grows_reserve (copier : Copier) (item : Item) : Grows copier (copier.reserve item) := by
  rcases copier.reserve_cases item with ⟨same, -⟩ | ⟨entity, fresh, -, made⟩
  · rw [same]
    exact .refl copier
  · rw [made]
    refine ⟨extends_withRoom fresh, fun tidy => tidy.withRoom fresh, fun other contents filled => ?_⟩
    refine filled.of_extends (extends_withRoom fresh) ?_
    have inside : copier.target.Holds (copier.renamed other.id).item :=
      (Graph.holds_iff_entity? _ _).mpr ⟨_, filled.held⟩
    exact Graph.entity?_push_of_lt _ _ inside

theorem grows_foldl_reserve (items : List Item) (copier : Copier) :
    Grows copier (items.foldl reserve copier) := by
  induction items generalizing copier with
  | nil => exact .refl copier
  | cons item rest ih => exact (copier.grows_reserve item).trans (ih (copier.reserve item))

/-- Items have a copy after room has been made for some if they had one or are among these. -/
theorem copied_foldl_reserve_iff {items : List Item} {other : Item} :
    (items.foldl reserve copier).Copied other
      ↔ copier.Copied other ∨ (other ∈ items ∧ copier.source.Holds other) := by
  induction items generalizing copier with
  | nil => simp
  | cons item rest ih =>
    rw [List.foldl_cons, ih, copied_reserve_iff, (copier.grows_reserve item).source, List.mem_cons]
    by_cases same : other = item
    · subst same
      simp only [true_and, true_or, or_assoc]
      exact or_congr_right (or_iff_left_of_imp And.right)
    · simp [same]

/-- Renaming to the copies keeps items apart. -/
theorem Tidy.separates (tidy : copier.Tidy base) {via : Renaming} {links : List Item}
    (copied : ∀ link ∈ links, copier.Copied link)
    (agree : Renaming.Agree via copier.renamed links) : via.Separates links := by
  intro first isFirst second isSecond same
  have firstId : via first.id = copier.renamed first.id := agree first isFirst
  have secondId : via second.id = copier.renamed second.id := agree second isSecond
  refine tidy.renamed_injective (copied first isFirst) (copied second isSecond) ?_
  rw [← firstId, ← secondId]
  exact same

/-! ### Filling -/

theorem extends_fill (item : Item) (entity : Entity item.arena) :
    Extends copier (copier.fill item entity) := ⟨rfl, fun _ _ found => found⟩

theorem Tidy.fill (tidy : copier.Tidy base) {item : Item} (copied : copier.Copied item)
    (entity : Entity item.arena) : (copier.fill item entity).Tidy base where
  sizeBehind arena := (Graph.size_setEntity _ _ _ _).trans (tidy.sizeBehind arena)
  positionBehind := tidy.positionBehind
  kept id held := by
    have apart : id.item ≠ (copier.renamed item.id).item := fun same =>
      tidy.not_holds_renamed copied (same ▸ held)
    exact (Graph.entity?_setEntity_of_ne _ _ apart).trans (tidy.kept id held)
  names := (Graph.packageNames_setArena _ _ _).trans tidy.names

theorem Tidy.isFilled_fill (tidy : copier.Tidy base) {item : Item} {entity : Entity item.arena}
    (copied : copier.Copied item) (links : ∀ link ∈ entity.links, copier.Copied link) :
    (copier.fill item entity).IsFilled item entity where
  copied := copied
  links := links
  held := Graph.entity?_setEntity_self _ _ (tidy.holds_renamed copied)

theorem IsFilled.fill {item other : Item} {contents : Entity other.arena}
    (filled : copier.IsFilled other contents) (tidy : copier.Tidy base) (copied : copier.Copied item)
    (entity : Entity item.arena) (differ : other ≠ item) :
    (copier.fill item entity).IsFilled other contents := by
  refine filled.of_extends (extends_fill item entity) (Graph.entity?_setEntity_of_ne _ _ ?_)
  exact fun same => differ (tidy.renamed_injective filled.copied copied same)

/-- An item of the source is filled with what it has there, and nothing else happens. -/
theorem fillFromSource_cases (copier : Copier) (item : Item) :
    copier.fillFromSource item = copier
      ∨ ∃ entity, copier.source.entity? item.id = some entity
        ∧ copier.fillFromSource item = copier.fill item entity := by
  unfold fillFromSource
  cases copier.source.entity? item.id with
  | none => exact Or.inl rfl
  | some entity => exact Or.inr ⟨entity, rfl, rfl⟩

@[simp] theorem memo_fillFromSource (item : Item) :
    (copier.fillFromSource item).memo = copier.memo := by
  unfold fillFromSource
  split <;> rfl

@[simp] theorem source_fillFromSource (item : Item) :
    (copier.fillFromSource item).source = copier.source := by
  unfold fillFromSource
  split <;> rfl

@[simp] theorem memo_foldl_fillFromSource (items : List Item) :
    (items.foldl fillFromSource copier).memo = copier.memo := by
  induction items generalizing copier with
  | nil => rfl
  | cons first rest ih => rw [List.foldl_cons, ih, memo_fillFromSource]

@[simp] theorem source_foldl_fillFromSource (items : List Item) :
    (items.foldl fillFromSource copier).source = copier.source := by
  induction items generalizing copier with
  | nil => rfl
  | cons first rest ih => rw [List.foldl_cons, ih, source_fillFromSource]

theorem copied_of_memo_eq (same : after.memo = before.memo) {item : Item} :
    after.Copied item ↔ before.Copied item := by
  rw [Copied, Copied, position?, position?, same]

theorem extends_of_memo_eq (sameMemo : after.memo = before.memo)
    (sameSource : after.source = before.source) : Extends before after where
  source := sameSource
  position item place found := by rwa [position?, sameMemo]

theorem Tidy.fillFromSource (tidy : copier.Tidy base) {item : Item} (copied : copier.Copied item) :
    (copier.fillFromSource item).Tidy base := by
  rcases copier.fillFromSource_cases item with same | ⟨entity, -, same⟩
  · rwa [same]
  · rw [same]
    exact tidy.fill copied entity

theorem Tidy.foldl_fillFromSource (tidy : copier.Tidy base) {items : List Item}
    (copied : ∀ item ∈ items, copier.Copied item) :
    (items.foldl Copier.fillFromSource copier).Tidy base := by
  induction items generalizing copier with
  | nil => exact tidy
  | cons first rest ih =>
    refine ih (tidy.fillFromSource (copied first (List.mem_cons_self ..))) fun item inRest => ?_
    exact (copied_of_memo_eq (memo_fillFromSource first)).mpr
      (copied item (List.mem_cons_of_mem _ inRest))

/-- Filling from the source leaves other copies, and those that hold what the source has. -/
theorem IsFilled.foldl_fillFromSource {items : List Item} {other : Item}
    {contents : Entity other.arena} (filled : copier.IsFilled other contents) (tidy : copier.Tidy base)
    (copied : ∀ item ∈ items, copier.Copied item)
    (allowed : other ∉ items ∨ copier.source.entity? other.id = some contents) :
    (items.foldl fillFromSource copier).IsFilled other contents := by
  induction items generalizing copier with
  | nil => exact filled
  | cons first rest ih =>
    have firstCopied := copied first (List.mem_cons_self ..)
    have filledThen : (copier.fillFromSource first).IsFilled other contents := by
      rcases copier.fillFromSource_cases first with same | ⟨entity, held, same⟩
      · rwa [same]
      · rw [same]
        by_cases differ : other = first
        · subst differ
          rw [held, Option.some.injEq] at allowed
          rw [allowed.resolve_left (not_not_intro (List.mem_cons_self ..))]
          exact tidy.isFilled_fill filled.copied filled.links
        · exact filled.fill tidy firstCopied entity differ
    refine ih filledThen (tidy.fillFromSource firstCopied) ?_ ?_
    · intro item member
      exact (copied_of_memo_eq (memo_fillFromSource first)).mpr
        (copied item (List.mem_cons_of_mem _ member))
    · rw [source_fillFromSource]
      exact allowed.imp_left fun apart inside => apart (List.mem_cons_of_mem _ inside)

/-- Filling from the source fills each of the items. -/
theorem isFilled_foldl_fillFromSource {items : List Item} (tidy : copier.Tidy base)
    (copied : ∀ item ∈ items, copier.Copied item)
    (links : ∀ item ∈ items, ∀ link ∈ copier.source.links item, copier.Copied link)
    {item : Item} (member : item ∈ items) {entity : Entity item.arena}
    (held : copier.source.entity? item.id = some entity) :
    (items.foldl fillFromSource copier).IsFilled item entity := by
  induction items generalizing copier with
  | nil => cases member
  | cons first rest ih =>
    have copiedThen (other : Item) :
        (copier.fillFromSource first).Copied other ↔ copier.Copied other :=
      copied_of_memo_eq (memo_fillFromSource first)
    have restCopied (other : Item) (inRest : other ∈ rest) :
        (copier.fillFromSource first).Copied other :=
      (copiedThen other).mpr (copied other (List.mem_cons_of_mem _ inRest))
    by_cases same : item = first
    · subst same
      have filled : (copier.fillFromSource item).IsFilled item entity := by
        have step : copier.fillFromSource item = copier.fill item entity := by
          unfold fillFromSource
          rw [held]
        rw [step]
        refine tidy.isFilled_fill (copied item member) fun link inside => ?_
        refine links item member link ?_
        unfold Graph.links
        rwa [held]
      refine filled.foldl_fillFromSource (tidy.fillFromSource (copied item member)) restCopied
        (Or.inr ?_)
      rwa [source_fillFromSource]
    · refine ih (tidy.fillFromSource (copied first (List.mem_cons_self ..))) restCopied ?_
        ((List.mem_cons.mp member).resolve_left same) ?_
      · intro other inRest link isLink
        rw [source_fillFromSource] at isLink
        exact (copiedThen link).mpr (links other (List.mem_cons_of_mem _ inRest) link isLink)
      · rwa [source_fillFromSource]

end WitGraph.Copier
