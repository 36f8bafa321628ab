/-
**Copying is complete.**

* `bring_brings`: bringing some items fills a copy of each of them and of all that they refer to;
* `populate_populates`: filling a copy with given contents leaves what the other copies hold;
* `transfer_transfers`: in the end of a transfer every copy is filled, of a listed item with the
  contents given for it and of any other item with its own.

Only a source whose links stay within its arenas (`Graph.IsClosed`) can be copied in this way.
-/

import WitGraph.Proofs.Copying.Filling
import WitGraph.Proofs.Search

namespace WitGraph

theorem Marks.has_ofList_iff {numbers : List Nat} {number : Nat} :
    (Marks.ofList numbers).has number = true ↔ number ∈ numbers := by
  have marked (numbers : List Nat) (marks : Marks) :
      (numbers.foldl mark marks).has number = true
        ↔ marks.has number = true ∨ number ∈ numbers := by
    induction numbers generalizing marks with
    | nil => simp
    | cons first rest ih =>
      rw [List.foldl_cons, ih, has_mark, Bool.or_eq_true, beq_iff_eq, List.mem_cons, or_assoc,
        or_left_comm]
  rw [ofList, marked, has_none]
  simp

namespace Copier

variable {copier before after : Copier} {base : Graph}

/-! ### What has no copy yet -/

/-- The marked items are those that have a copy. -/
theorem hasEntered_copied_iff (item : Item) :
    ({ entered := copier.copied } : Progress Item).hasEntered item = true
      ↔ copier.Copied item := by
  have present (memo : List (Item × Nat)) :
      item.number ∈ memo.map (·.1.number) ↔ ∃ place, memo.lookup item = some place := by
    induction memo with
    | nil => simp
    | cons entry rest ih =>
      obtain ⟨first, place⟩ := entry
      by_cases same : item = first
      · simp [same]
      · have differ : (item == first) = false := by simpa using same
        have apart : item.number ≠ first.number := fun equal => same (Item.number_injective equal)
        rw [List.map_cons, List.mem_cons, ih, List.lookup_cons, differ]
        exact or_iff_right apart
  exact Marks.has_ofList_iff.trans (present copier.memo)

/-- The search for what is missing. -/
def search (copier : Copier) (items : List Item) : Progress Item :=
  Search.visitAll copier.source.links (copier.source.itemCount + 1) { entered := copier.copied } items

theorem explores_search (copier : Copier) (items : List Item) :
    Search.Explores copier.source.links items { entered := copier.copied } (copier.search items) := by
  exact Search.explores_visitAll Graph.mem_items_of_links _ _ _
    (Nat.lt_of_le_of_lt List.countP_le_length copier.source.length_items_lt)

/-- What is missing has no copy, and with all that it refers to it makes up what the items need. -/
structure Misses (copier : Copier) (items missing : List Item) : Prop where
  fresh : ∀ item ∈ missing, ¬ copier.Copied item
  covered : ∀ item ∈ items, copier.Copied item ∨ item ∈ missing
  closed : ∀ item ∈ missing, ∀ link ∈ copier.source.links item,
    copier.Copied link ∨ link ∈ missing
  /-- It is led to from the items, past what has a copy. -/
  led : ∀ item ∈ missing, ∃ root ∈ items, ¬ copier.Copied root
    ∧ Relation.ReflTransGen (fun item link => link ∈ copier.source.links item ∧ ¬ copier.Copied link)
      root item

theorem Misses.reached {items missing : List Item} (misses : copier.Misses items missing) (item : Item)
    (member : item ∈ missing) : ∃ root ∈ items, Search.Reaches copier.source.links root item := by
  obtain ⟨root, isRoot, -, path⟩ := misses.led item member
  exact ⟨root, isRoot, Relation.ReflTransGen.mono (fun _ _ step => step.1) _ _ path⟩

/-- What is missing is what the search enters. -/
theorem mem_missing_iff {items : List Item} {item : Item} :
    item ∈ copier.missing items
      ↔ (copier.search items).hasEntered item = true ∧ ¬ copier.Copied item := by
  obtain ⟨found, record, adds⟩ := (copier.explores_search items).recorded
  show item ∈ (copier.search items).discovered.reverse ↔ _
  rw [record, List.mem_reverse, List.append_nil, ← hasEntered_copied_iff]
  exact adds.mem_iff item

theorem misses_missing (copier : Copier) (items : List Item) :
    copier.Misses items (copier.missing items) := by
  have explored := copier.explores_search items
  have either {item : Item} (entered : (copier.search items).hasEntered item = true) :
      copier.Copied item ∨ item ∈ copier.missing items := by
    by_cases early : copier.Copied item
    · exact Or.inl early
    · exact Or.inr (mem_missing_iff.mpr ⟨entered, early⟩)
  have fresh {item : Item} (missing : item ∈ copier.missing items) :
      ({ entered := copier.copied } : Progress Item).hasEntered item ≠ true :=
    fun before => (mem_missing_iff.mp missing).2 ((hasEntered_copied_iff item).mp before)
  refine ⟨fun item missing => (mem_missing_iff.mp missing).2, ?_, ?_, ?_⟩
  · intro item member
    exact either (explored.covered item member)
  · intro item missing link isLink
    exact either (explored.closed item (mem_missing_iff.mp missing).1 (fresh missing) link isLink)
  · intro item missing
    obtain ⟨root, isRoot, freshRoot, path⟩ :=
      explored.led item (mem_missing_iff.mp missing).1 (fresh missing)
    refine ⟨root, isRoot, fun copied => freshRoot ((hasEntered_copied_iff root).mpr copied), ?_⟩
    exact Relation.ReflTransGen.mono (fun _ link step =>
      ⟨step.1, fun copied => step.2 ((hasEntered_copied_iff link).mpr copied)⟩) _ _ path

theorem Misses.holds {items missing : List Item} (misses : copier.Misses items missing)
    (closed : copier.source.IsClosed) (held : ∀ item ∈ items, copier.source.Holds item) {item : Item}
    (member : item ∈ missing) : copier.source.Holds item := by
  obtain ⟨root, isRoot, path⟩ := misses.reached item member
  clear member
  induction path with
  | refl => exact held root isRoot
  | tail _ link _ => exact closed _ _ link

/-! ### Bringing items -/

theorem extends_bring (copier : Copier) (items : List Item) : Extends copier (copier.bring items) :=
  (grows_foldl_reserve (copier.missing items) copier).toExtends.trans
    (extends_of_memo_eq (memo_foldl_fillFromSource _) (source_foldl_fillFromSource _))

/-- What is missing gets a copy if it is in the source, and nothing else does. -/
theorem copied_bring_iff_missing {items : List Item} {item : Item} :
    (copier.bring items).Copied item
      ↔ copier.Copied item ∨ (item ∈ copier.missing items ∧ copier.source.Holds item) :=
  (copied_of_memo_eq (memo_foldl_fillFromSource _)).trans copied_foldl_reserve_iff

theorem copied_or_missing_of_bring {items : List Item} {item : Item}
    (copied : (copier.bring items).Copied item) : copier.Copied item ∨ item ∈ copier.missing items :=
  (copied_bring_iff_missing.mp copied).imp_right And.left

/-- Every copy that is new is filled from the source. -/
def FillsFresh (before after : Copier) : Prop :=
  ∀ item, after.Copied item → before.Copied item
    ∨ ∃ entity, before.source.entity? item.id = some entity ∧ after.IsFilled item entity

/-- All that some items need has a copy. -/
structure Brings (before : Copier) (items : List Item) (after : Copier) : Prop
    extends Grows before after where
  covered : ∀ item ∈ items, after.Copied item
  fresh : before.FillsFresh after

/-- **Bringing items fills a copy of each of them and of all that they refer to.** -/
theorem bring_brings (tidy : copier.Tidy base) (closed : copier.source.IsClosed) {items : List Item}
    (held : ∀ item ∈ items, copier.source.Holds item) :
    copier.Brings items (copier.bring items) := by
  have misses := copier.misses_missing items
  have holds {item : Item} (member : item ∈ copier.missing items) : copier.source.Holds item :=
    misses.holds closed held member
  -- what follows needs only what `Misses` and `Grows` say of the search and of the room it makes
  unfold bring
  generalize copier.missing items = found at misses holds
  have grown := grows_foldl_reserve found copier
  have isCopied (item : Item) : (found.foldl reserve copier).Copied item
      ↔ copier.Copied item ∨ (item ∈ found ∧ copier.source.Holds item) := copied_foldl_reserve_iff
  show copier.Brings items (found.foldl fillFromSource (found.foldl reserve copier))
  generalize found.foldl reserve copier = roomed at grown isCopied
  have either {item : Item} (either : copier.Copied item ∨ item ∈ found) : roomed.Copied item :=
    (isCopied item).mpr (either.imp_right fun member => ⟨member, holds member⟩)
  have copied (item : Item) (member : item ∈ found) : roomed.Copied item := either (Or.inr member)
  have links (item : Item) (member : item ∈ found) (link : Item)
      (isLink : link ∈ roomed.source.links item) : roomed.Copied link := by
    rw [grown.source] at isLink
    exact either (misses.closed item member link isLink)
  have later (item : Item) : (found.foldl fillFromSource roomed).Copied item ↔ roomed.Copied item :=
    copied_of_memo_eq (memo_foldl_fillFromSource found)
  refine ⟨⟨?_, ?_, ?_⟩, ?_, ?_⟩
  · exact grown.toExtends.trans (extends_of_memo_eq (memo_foldl_fillFromSource found)
      (source_foldl_fillFromSource found))
  · exact fun tidy => (grown.tidy tidy).foldl_fillFromSource copied
  · intro item entity filled
    exact (grown.filled item entity filled).foldl_fillFromSource (grown.tidy tidy) copied
      (Or.inl fun member => misses.fresh item member filled.copied)
  · intro item member
    exact (later item).mpr (either (misses.covered item member))
  · intro item present
    refine ((isCopied item).mp ((later item).mp present)).imp_right ?_
    rintro ⟨member, inside⟩
    obtain ⟨entity, isEntity⟩ := (Graph.holds_iff_entity? _ _).mp inside
    refine ⟨entity, isEntity, ?_⟩
    refine isFilled_foldl_fillFromSource (grown.tidy tidy) copied links member ?_
    rwa [grown.source]

/-! ### Filling with given contents -/

/-- The copy of an item has got given contents, and the other copies are left. -/
structure Populates (before : Copier) (item : Item) (entity : Entity item.arena) (after : Copier) :
    Prop extends Extends before after where
  tidy : after.Tidy
  self : after.IsFilled item entity
  others : ∀ (other : Item) (contents : Entity other.arena), other ≠ item →
    before.IsFilled other contents → after.IsFilled other contents
  fresh : before.FillsFresh after

/-- A copy can be filled with any contents that refer to items of the source. -/
theorem populate_populates (tidy : copier.Tidy) (closed : copier.source.IsClosed) {item : Item}
    (copied : copier.Copied item) {entity : Entity item.arena}
    (held : ∀ link ∈ entity.links, copier.source.Holds link) :
    copier.Populates item entity (copier.populate item entity) := by
  have brings := bring_brings tidy closed held
  show copier.Populates item entity (((copier.reserve item).bring entity.links).fill item entity)
  rw [reserve_of_copied copied]
  generalize copier.bring entity.links = brought at brings
  have broughtTidy := brings.tidy tidy
  have copiedThen := brings.copied copied
  refine ⟨brings.toExtends.trans (extends_fill item entity), broughtTidy.fill copiedThen entity, ?_, ?_,
    ?_⟩
  · exact broughtTidy.isFilled_fill copiedThen brings.covered
  · intro other contents differ filled
    exact (brings.filled other contents filled).fill broughtTidy copiedThen entity differ
  · intro other present
    by_cases early : copier.Copied other
    · exact Or.inl early
    · obtain ⟨contents, isEntity, filled⟩ := (brings.fresh other present).resolve_left early
      refine Or.inr ⟨contents, isEntity, filled.fill broughtTidy copiedThen entity ?_⟩
      rintro rfl
      exact early copied

/-- The item has been given contents, and they refer to items of the graph. -/
def Suits (graph : Graph) (contents : (item : Item) → Option (Entity item.arena)) (item : Item) :
    Prop :=
  ∃ entity, contents item = some entity ∧ ∀ link ∈ entity.links, graph.Holds link

/-- Several copies have got given contents. -/
structure PopulatesAll (before : Copier) (contents : (item : Item) → Option (Entity item.arena))
    (items : List Item) (after : Copier) : Prop extends Extends before after where
  tidy : after.Tidy
  listed : ∀ item ∈ items, ∀ entity, contents item = some entity → after.IsFilled item entity
  others : ∀ (item : Item) (entity : Entity item.arena),
    item ∉ items ∨ contents item = some entity → before.IsFilled item entity →
      after.IsFilled item entity
  fresh : before.FillsFresh after

/-- **Copies can be filled one after another**, each with contents that refer to items of the
source. -/
theorem foldl_populateFrom {contents : (item : Item) → Option (Entity item.arena)}
    {items : List Item} (tidy : copier.Tidy) (closed : copier.source.IsClosed)
    (copied : ∀ item ∈ items, copier.Copied item)
    (suits : ∀ item ∈ items, Suits copier.source contents item) :
    copier.PopulatesAll contents items (items.foldl (Graph.populateFrom contents) copier) := by
  induction items generalizing copier with
  | nil =>
    refine ⟨.refl copier, tidy, ?_, fun _ _ _ filled => filled, fun _ => Or.inl⟩
    intro item member
    cases member
  | cons first rest ih =>
    obtain ⟨entity, given, held⟩ := suits first (List.mem_cons_self ..)
    have step : Graph.populateFrom contents copier first = copier.populate first entity := by
      unfold Graph.populateFrom
      rw [given]
    rw [List.foldl_cons, step]
    have once := populate_populates tidy closed (copied first (List.mem_cons_self ..)) held
    generalize copier.populate first entity = between at once
    have then_ := ih once.tidy (once.source ▸ closed)
      (fun item inRest => once.copied (copied item (List.mem_cons_of_mem _ inRest)))
      (fun item inRest => once.source ▸ suits item (List.mem_cons_of_mem _ inRest))
    generalize rest.foldl (Graph.populateFrom contents) between = after at then_
    refine ⟨once.toExtends.trans then_.toExtends, then_.tidy, ?_, ?_, ?_⟩
    · intro item member contained isGiven
      by_cases same : item = first
      · -- if the item is listed once more, it is filled again with the same contents
        subst same
        cases given.symm.trans isGiven
        exact then_.others item _ (Or.inr given) once.self
      · exact then_.listed item ((List.mem_cons.mp member).resolve_left same) contained isGiven
    · intro item contained allowed filled
      have allowedThen : item ∉ rest ∨ contents item = some contained :=
        allowed.imp_left fun apart inRest => apart (List.mem_cons_of_mem _ inRest)
      by_cases same : item = first
      · subst same
        have isGiven := allowed.resolve_left (not_not_intro (List.mem_cons_self ..))
        cases given.symm.trans isGiven
        exact then_.others item _ allowedThen once.self
      · exact then_.others item contained allowedThen (once.others item contained same filled)
    · intro item present
      by_cases early : copier.Copied item
      · exact Or.inl early
      · have apart : item ∉ rest := fun inRest => early (copied item (List.mem_cons_of_mem _ inRest))
        rcases then_.fresh item present with between | ⟨contained, isEntity, filled⟩
        · obtain ⟨contained, isEntity, filled⟩ := (once.fresh item between).resolve_left early
          exact Or.inr ⟨contained, isEntity, then_.others item contained (Or.inl apart) filled⟩
        · rw [once.source] at isEntity
          exact Or.inr ⟨contained, isEntity, filled⟩

/-! ### Transfers -/

theorem tidy_start (graph target : Graph) :
    ({ source := graph, target } : Copier).Tidy target where
  sizeBehind _ := rfl
  positionBehind item place := by simp [position?, copies]
  kept _ _ := rfl
  names := rfl

/-- In the end of a transfer every copy is filled, of the listed items with the contents given for
them and of any other item with its own. -/
structure Transfers (graph : Graph) (items : List Item)
    (contents : (item : Item) → Option (Entity item.arena)) (copier : Copier) : Prop where
  tidy : copier.Tidy
  listed : ∀ item ∈ items, ∀ entity, contents item = some entity → copier.IsFilled item entity
  others : ∀ item, copier.Copied item → item ∈ items
    ∨ ∃ entity, graph.entity? item.id = some entity ∧ copier.IsFilled item entity

/-- **A transfer fills every copy.** -/
theorem transfer_transfers {graph : Graph} (closed : graph.IsClosed) {items : List Item}
    {contents : (item : Item) → Option (Entity item.arena)}
    (held : ∀ item ∈ items, graph.Holds item) (suits : ∀ item ∈ items, Suits graph contents item) :
    Transfers graph items contents (graph.transfer items contents) := by
  have grown := grows_foldl_reserve items { source := graph }
  have isCopied (item : Item) : (items.foldl reserve { source := graph }).Copied item
      ↔ Copied { source := graph } item ∨ (item ∈ items ∧ graph.Holds item) :=
    copied_foldl_reserve_iff
  show Transfers graph items contents
    (items.foldl (Graph.populateFrom contents) (items.foldl reserve { source := graph }))
  generalize items.foldl reserve { source := graph } = roomed at grown isCopied
  have copied (item : Item) (member : item ∈ items) : roomed.Copied item :=
    (isCopied item).mpr (Or.inr ⟨member, held item member⟩)
  have source : roomed.source = graph := grown.source
  have filled := foldl_populateFrom (grown.tidy (tidy_start graph {})) (source ▸ closed) copied
    fun item member => source ▸ suits item member
  refine ⟨filled.tidy, filled.listed, ?_⟩
  intro item present
  rcases filled.fresh item present with early | ⟨entity, isEntity, isFilled⟩
  · rcases (isCopied item).mp early with ⟨place, found⟩ | ⟨member, -⟩
    · cases found
    · exact Or.inl member
  · rw [source] at isEntity
    exact Or.inr ⟨entity, isEntity, isFilled⟩

end Copier

end WitGraph
