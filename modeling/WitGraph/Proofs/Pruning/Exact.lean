/-
**What a pruned graph holds, exactly.**

`pruneTo_holds_kept` says that the arenas of a pruned graph hold the kept items (`Graph.Kept`) in the
order of the source, each once, and that each of them is what it is in the source but for its new ids
and for the entries of packages and worlds that are left out (`Graph.IsPruned`).

The kept items are closed under the links of what they contain after pruning
(`links_subset_keptItems`). So copying them brings in no other item.
-/

import WitGraph.Proofs.Copying.Settled
import WitGraph.Proofs.Document.WellLinked
import WitGraph.Proofs.Pruning.Contents
import WitGraph.Proofs.Pruning.Kept
import WitGraph.Proofs.Pruning.SelfContained

namespace WitGraph.Graph

variable {graph : Graph} {target : Node}

/-! ### Kept ids -/

/-- The kept ids of an arena, in order. -/
def keptIds (graph : Graph) (kept : Item → Bool) (arena : Arena) : List (Id arena) :=
  (graph.ids arena).filter fun id => kept id.item

/-- The new id of a kept id is its place among the kept ids of its arena. -/
def placeAmong (graph : Graph) (kept : Item → Bool) : Renaming := fun {arena} id =>
  ⟨(graph.keptIds kept arena).idxOf id⟩

/-- The second entity is the first one, which has an id in the source, with new ids and without the
entries that pruning leaves out. -/
def IsPruned (graph : Graph) (target : Node) (kept : Item → Bool) (via : Renaming) :
    {arena : Arena} → Id arena → Entity arena → Entity arena → Prop
  | .package => fun _ (original pruned : Package) =>
    pruned = { original with
      interfaces := (original.interfaces.filter fun _ id => kept id.item).mapValues via
      worlds := (original.worlds.filter fun _ id => kept id.item).mapValues via }
  | .world => fun id (original pruned : World) =>
    pruned.imports.entries = (original.imports.entries.filter (graph.leaves target id .imports)).map
        (WorldItem.renameEntry via)
      ∧ pruned.exports.entries
        = (original.exports.entries.filter (graph.leaves target id .exports)).map
          (WorldItem.renameEntry via)
      ∧ pruned = { original with
          imports := pruned.imports, exports := pruned.exports
          package := original.package.map via }
  | .interface => fun _ (original pruned : Interface) => pruned = original.rename via
  | .type => fun _ (original pruned : TypeDef) => pruned = original.rename via

/-! ### Links of what is left -/

/-- What is kept with a kept item is kept. -/
theorem isKept_of_mem_keeps {item other : Item} (kept : graph.isKept target item = true)
    (member : other ∈ graph.keeps target item) : graph.isKept target other = true := by
  rw [isKept_iff_leads] at kept ⊢
  obtain ⟨root, isRoot, path⟩ := kept
  exact ⟨root, isRoot, path.tail member⟩

theorem isKept_of_leads {item other : Item} (kept : graph.isKept target item = true)
    (path : Search.Reaches (graph.keeps target) item other) : graph.isKept target other = true := by
  induction path with
  | refl => exact kept
  | tail _ member ih => exact isKept_of_mem_keeps ih member

/-- If the signature of a function is kept, so is all that the function mentions. -/
theorem MentionsResources.isKept (mentions : graph.MentionsResources) {place : FunctionPlace}
    {function : Function} (found : graph.function? place = some function)
    (signature : ∀ id ∈ function.signatureIds, graph.isKept target id.item = true) {id : TypeId}
    (member : id ∈ function.mentionedIds) : graph.isKept target id.item = true := by
  obtain ⟨start, inSignature, reached⟩ := mentions.exists_signatureId found member
  obtain ⟨type, same, path⟩ := leads_of_reaches_type reached
  cases Id.item_injective (Node.item.inj same)
  exact isKept_of_leads (signature start inSignature) path

/-- What an entry that is left in a kept world refers to is kept. -/
theorem MentionsResources.isKept_entry (mentions : graph.MentionsResources)
    (linked : graph.WellLinked) {id : WorldId} {world : World} {side : Side}
    {entry : WorldKey × WorldItem} (kept : graph.isKept target id.item = true)
    (found : graph.world? id = some world) (listed : entry ∈ (world.side side).entries)
    (left : graph.leaves target id side entry = true) {link : Item}
    (member : link ∈ WorldItem.entryLinks entry) : graph.isKept target link = true := by
  have first {item : Item} (inEntry : item ∈ Pruning.itemKeeps entry.2) :
      graph.isKept target item = true :=
    isKept_of_mem_keeps kept
      ((mem_keeps_world_iff found).mpr (Or.inl ⟨side, entry, listed, left, inEntry⟩))
  have keyed := linked.keyed id world found entry (mem_entries_iff.mpr ⟨side, listed⟩)
  obtain ⟨key, item⟩ := entry
  rcases List.mem_append.mp member with inKey | inItem
  · obtain ⟨interface, isKey, rfl⟩ := Option.map_eq_some_iff.mp (Option.mem_toList.mp inKey)
    have isInterface := keyed interface isKey
    cases item with
    | interface other stability =>
      cases isInterface
      exact first (List.mem_singleton_self _)
    | function function => cases isInterface
    | type other => cases isInterface
  · cases item with
    | interface other stability => exact first inItem
    | type other => exact first inItem
    | function function =>
      obtain ⟨type, mentioned, rfl⟩ := List.mem_map.mp inItem
      refine mentions.isKept (function?_world_iff.mpr ⟨world, found, listed⟩) ?_ mentioned
      exact fun start inSignature => first (List.mem_map_of_mem inSignature)

/-- **What is left of a kept item refers to kept items only.** -/
theorem MentionsResources.isKept_of_mem_links (mentions : graph.MentionsResources)
    (linked : graph.WellLinked) {item : Item} (kept : graph.isKept target item = true)
    {entity : Entity item.arena}
    (contents : (Pruning.start graph target).contents? (graph.isKept target) item = some entity)
    {link : Item} (member : link ∈ entity.links) : graph.isKept target link = true := by
  have keeps {other : Item} (inside : other ∈ graph.keeps target item) :
      graph.isKept target other = true := isKept_of_mem_keeps kept inside
  obtain ⟨arena, index⟩ := item
  cases arena with
  | package =>
    obtain ⟨original, -, rfl⟩ := Option.map_eq_some_iff.mp contents
    rcases List.mem_append.mp member with inInterfaces | inWorlds
    · obtain ⟨_, isValue, rfl⟩ := List.mem_map.mp inInterfaces
      obtain ⟨name, listed⟩ := (OrderedMap.mem_values_iff _).mp isValue
      exact (List.mem_filter.mp listed).2
    · obtain ⟨_, isValue, rfl⟩ := List.mem_map.mp inWorlds
      obtain ⟨name, listed⟩ := (OrderedMap.mem_values_iff _).mp isValue
      exact (List.mem_filter.mp listed).2
  | world =>
    obtain ⟨original, found, rfl⟩ := Option.map_eq_some_iff.mp contents
    rcases List.mem_append.mp member with inEntries | inPackage
    · obtain ⟨entry, isEntry, inEntry⟩ := List.mem_flatMap.mp inEntries
      obtain ⟨side, inSide⟩ := mem_entries_iff.mp isEntry
      rw [entries_side_pruneWorld] at inSide
      obtain ⟨listed, left⟩ := List.mem_filter.mp inSide
      exact mentions.isKept_entry linked kept found listed left inEntry
    · obtain ⟨package, owned, rfl⟩ := Option.map_eq_some_iff.mp (Option.mem_toList.mp inPackage)
      exact keeps ((mem_keeps_world_iff found).mpr (Or.inr ⟨package, owned, rfl⟩))
  | interface =>
    -- the rules speak of the signatures of functions, the links also of their resources
    have found : graph.interface? ⟨index⟩ = some entity := contents
    have isMember (other : Item) : other ∈ graph.keeps target (Id.item (⟨index⟩ : InterfaceId))
        ↔ _ := mem_keeps_interface_iff found
    simp only [Entity.links, Interface.links, List.mem_append, List.mem_flatMap] at member
    rcases member with (inTypes | ⟨function, isFunction, inside⟩) | inPackage
    · obtain ⟨type, listed, rfl⟩ := List.mem_map.mp inTypes
      exact keeps ((isMember _).mpr (Or.inl ⟨type, listed, rfl⟩))
    · obtain ⟨name, listed⟩ := (OrderedMap.mem_values_iff _).mp isFunction
      obtain ⟨type, mentioned, rfl⟩ := List.mem_map.mp inside
      refine mentions.isKept (function?_interface_iff.mpr ⟨_, found, listed⟩) ?_ mentioned
      exact fun start inSignature =>
        keeps ((isMember _).mpr (Or.inr (Or.inl ⟨function, isFunction, start, inSignature, rfl⟩)))
    · obtain ⟨package, owned, rfl⟩ := Option.map_eq_some_iff.mp (Option.mem_toList.mp inPackage)
      exact keeps ((isMember _).mpr (Or.inr (Or.inr ⟨package, owned, rfl⟩)))
  | type =>
    have found : graph.type? ⟨index⟩ = some entity := contents
    rcases List.mem_append.mp member with owned | direct
    · exact keeps ((mem_keeps_type_iff found).mpr (Or.inr (Option.mem_toList.mp owned)))
    · obtain ⟨other, isDirect, rfl⟩ := List.mem_map.mp direct
      exact keeps ((mem_keeps_type_iff found).mpr (Or.inl ⟨other, isDirect, rfl⟩))

/-! ### Where the copies are -/

theorem filter_arena_keptItems (arena : Arena) :
    (Pruning.start graph target).keptItems.filter (fun item => item.arena = arena)
      = (graph.keptIds (graph.isKept target) arena).map Id.item := by
  show (graph.items.filter (graph.isKept target)).filter _ = _
  rw [List.filter_comm, filter_arena_items, List.filter_map]
  rfl

theorem mem_keptIds_iff {kept : Item → Bool} {arena : Arena} {id : Id arena} :
    id ∈ graph.keptIds kept arena ↔ graph.Holds id.item ∧ kept id.item = true := by
  rw [keptIds, List.mem_filter, mem_ids_iff]

/-- What is left of a kept item refers to listed items only. -/
theorem links_subset_keptItems (linked : graph.WellLinked) (mentions : graph.MentionsResources)
    {item : Item} (member : item ∈ (Pruning.start graph target).keptItems) {entity : Entity item.arena}
    (contents : (Pruning.start graph target).contents? (graph.isKept target) item = some entity) :
    entity.links ⊆ (Pruning.start graph target).keptItems := by
  intro link isLink
  have kept : graph.isKept target item = true := (List.mem_filter.mp member).2
  obtain ⟨_, trimmed, -, isTrimmed, -, holds⟩ :=
    (Pruning.start graph target).exists_of_mem_keptItems linked.closed member
  cases contents.symm.trans isTrimmed
  exact List.mem_filter.mpr ⟨(graph.mem_items_iff link).mpr (holds link isLink),
    mentions.isKept_of_mem_links linked kept contents isLink⟩

/-- **The copies are those of the kept items**, in the order of the source. -/
theorem copies_copier (linked : graph.WellLinked) (mentions : graph.MentionsResources)
    (arena : Arena) :
    (Pruning.start graph target).copier.copies arena
      = (graph.keptIds (graph.isKept target) arena).map Id.item := by
  rw [← filter_arena_keptItems]
  show (graph.transfer (Pruning.start graph target).keptItems
    ((Pruning.start graph target).contents? (graph.isKept target))).copies arena = _
  refine Copier.copies_transfer (graph.nodup_items.filter _) ?_ ?_ arena
  · exact fun item => Pruning.holds_of_mem_keptItems
  · exact fun item member entity => links_subset_keptItems linked mentions member

/-- The copy of a kept item is at its place among the kept items. -/
theorem position?_copier (linked : graph.WellLinked) (mentions : graph.MentionsResources)
    {arena : Arena} {id : Id arena} {place : Nat}
    (found : (graph.keptIds (graph.isKept target) arena)[place]? = some id) :
    (Pruning.start graph target).copier.position? id.item = some place := by
  have tidy := ((Pruning.start graph target).transfers_copier linked.closed).tidy
  have copied : ((Pruning.start graph target).copier.copies arena)[place]? = some id.item := by
    rw [copies_copier linked mentions, List.getElem?_map, found]
    rfl
  exact tidy.position_of_getElem? copied

/-- A kept id gets its place among the kept ids. -/
theorem renamed_eq_placeAmong (linked : graph.WellLinked) (mentions : graph.MentionsResources)
    {arena : Arena} (id : Id arena) (inside : graph.Holds id.item)
    (kept : graph.isKept target id.item = true) :
    (Pruning.start graph target).copier.renamed id = graph.placeAmong (graph.isKept target) id := by
  have listed : id ∈ graph.keptIds (graph.isKept target) arena := mem_keptIds_iff.mpr ⟨inside, kept⟩
  have found : (graph.keptIds (graph.isKept target) arena)[
      (graph.keptIds (graph.isKept target) arena).idxOf id]? = some id := by
    rw [List.getElem?_eq_getElem (List.idxOf_lt_length_iff.mpr listed), List.getElem_idxOf]
  exact Copier.renamed_of_position id (position?_copier linked mentions found)

/-! ### What is left of the kept items -/

/-- What a kept item contains is pruned as it should be. -/
theorem isPruned_of_contents? {via : Renaming} {arena : Arena} {id : Id arena}
    {trimmed : Entity arena}
    (contents : (Pruning.start graph target).contents? (graph.isKept target) id.item = some trimmed)
    (separates : via.Separates trimmed.links) :
    ∃ original, graph.entity? id = some original
      ∧ graph.IsPruned target (graph.isKept target) via id original (trimmed.rename via) := by
  cases arena with
  | package =>
    obtain ⟨original, found, rfl⟩ := Option.map_eq_some_iff.mp contents
    exact ⟨original, found, rfl⟩
  | world =>
    obtain ⟨original, found, rfl⟩ := Option.map_eq_some_iff.mp contents
    refine ⟨original, found, ?_, ?_, rfl⟩
    · exact (World.entries_side_rename separates .imports).trans
        (congrArg _ (entries_side_pruneWorld id original .imports))
    · exact (World.entries_side_rename separates .exports).trans
        (congrArg _ (entries_side_pruneWorld id original .exports))
  | interface => exact ⟨trimmed, contents, rfl⟩
  | type => exact ⟨trimmed, contents, rfl⟩

/-- The copy of a kept item is filled with what is left of the item. -/
theorem exists_filled (closed : graph.IsClosed) {arena : Arena} {id : Id arena}
    (inside : graph.Holds id.item) (kept : graph.isKept target id.item = true) :
    ∃ trimmed : Entity arena,
      (Pruning.start graph target).contents? (graph.isKept target) id.item = some trimmed
        ∧ (∀ link ∈ trimmed.links, graph.Holds link)
        ∧ (Pruning.start graph target).copier.IsFilled id.item trimmed := by
  have listed : id.item ∈ (Pruning.start graph target).keptItems :=
    List.mem_filter.mpr ⟨(graph.mem_items_iff _).mpr inside, kept⟩
  obtain ⟨_, trimmed, -, contents, -, holds⟩ :=
    (Pruning.start graph target).exists_of_mem_keptItems closed listed
  exact ⟨trimmed, contents, holds,
    ((Pruning.start graph target).transfers_copier closed).listed id.item listed trimmed contents⟩

/-- The copy of a kept item is the item pruned, its links being renamed like by the copier. -/
theorem exists_pruned_of_agree (closed : graph.IsClosed) {via : Renaming} {arena : Arena}
    {id : Id arena} {trimmed : Entity arena}
    (contents : (Pruning.start graph target).contents? (graph.isKept target) id.item = some trimmed)
    (filled : (Pruning.start graph target).copier.IsFilled id.item trimmed)
    (agree : Renaming.Agree via (Pruning.start graph target).copier.renamed trimmed.links) :
    ∃ original pruned, graph.entity? id = some original
      ∧ (graph.pruneTo target).entity? ((Pruning.start graph target).copier.renamed id) = some pruned
      ∧ graph.IsPruned target (graph.isKept target) via id original pruned := by
  have tidy := ((Pruning.start graph target).transfers_copier closed).tidy
  obtain ⟨original, isOriginal, pruned⟩ :=
    isPruned_of_contents? contents (tidy.separates filled.links agree)
  have held : (Pruning.start graph target).copier.target.entity?
      ((Pruning.start graph target).copier.renamed id)
        = some (trimmed.rename (Pruning.start graph target).copier.renamed) := filled.held
  rw [← Entity.rename_congr agree] at held
  exact ⟨original, _, isOriginal, (entity?_withPackageNames _).trans held, pruned⟩

/-- The entity at the place of a kept id. -/
theorem exists_pruned (linked : graph.WellLinked) (mentions : graph.MentionsResources)
    {arena : Arena} {id : Id arena} {place : Nat}
    (found : (graph.keptIds (graph.isKept target) arena)[place]? = some id) :
    ∃ original pruned, graph.entity? id = some original
      ∧ (graph.pruneTo target).entity? (⟨place⟩ : Id arena) = some pruned
      ∧ graph.IsPruned target (graph.isKept target) (graph.placeAmong (graph.isKept target)) id
          original pruned := by
  obtain ⟨inside, kept⟩ := mem_keptIds_iff.mp (List.mem_of_getElem? found)
  obtain ⟨trimmed, contents, holds, filled⟩ := exists_filled linked.closed inside kept
  -- the copier gives the places among the kept items, as all links of the contents are kept
  have agree : Renaming.Agree (graph.placeAmong (graph.isKept target))
      (Pruning.start graph target).copier.renamed trimmed.links := by
    intro link isLink
    have keptLink := mentions.isKept_of_mem_links linked kept contents isLink
    exact (renamed_eq_placeAmong linked mentions link.id (holds link isLink) keptLink).symm
  have place := Copier.renamed_of_position id (position?_copier linked mentions found)
  exact place ▸ exists_pruned_of_agree linked.closed contents filled agree

theorem size_pruneTo (linked : graph.WellLinked) (mentions : graph.MentionsResources)
    (arena : Arena) :
    (graph.pruneTo target).size arena = (graph.keptIds (graph.isKept target) arena).length := by
  have tidy := ((Pruning.start graph target).transfers_copier linked.closed).tidy
  have sameSize : (graph.pruneTo target).size arena
      = (Pruning.start graph target).copier.target.size arena := by cases arena <;> rfl
  rw [sameSize, tidy.size, copies_copier linked mentions, List.length_map]

/-- **What a pruned graph holds, exactly**: the kept items in the order of the source, each once and
pruned. -/
theorem pruneTo_holds_kept {graph : Graph} (isRead : graph.IsRead)
    (mentions : graph.MentionsResources) (target : Node) :
    ∃ kept : Item → Bool, (∀ item, kept item = true ↔ graph.Kept target item)
      ∧ ∀ arena, List.Forall₂ (fun id pruned => ∃ original, graph.entity? id = some original
          ∧ graph.IsPruned target kept (graph.placeAmong kept) id original pruned)
        (graph.keptIds kept arena) ((graph.pruneTo target).arena arena).toList := by
  have linked := wellLinked_of_isRead isRead
  refine ⟨graph.isKept target, fun _ => isKept_iff linked.closed mentions, fun arena => ?_⟩
  refine List.forall₂_iff_get.mpr ⟨(size_pruneTo linked mentions arena).symm, ?_⟩
  intro place inIds inArena
  obtain ⟨original, pruned, isOriginal, found, isPruned⟩ :=
    exists_pruned linked mentions (List.getElem?_eq_getElem inIds)
  have same : ((graph.pruneTo target).arena arena).toList.get ⟨place, inArena⟩ = pruned := by
    have held : ((graph.pruneTo target).arena arena)[place]? = some pruned := found
    rw [← Array.getElem?_toList, List.getElem?_eq_getElem inArena] at held
    exact Option.some.inj held
  rw [same]
  exact ⟨original, isOriginal, isPruned⟩

/-- The method of the document has its resource as the type of its parameter. -/
theorem Sample.mentionsResources : Sample.graph.MentionsResources :=
  mentionsResources_of_direct (by decide +kernel)

/-- What is left of the document's graph when it is pruned to its method. -/
theorem pruneTo_holds_kept_method :
    let target : Node := .function (.interface ⟨0⟩ "[method]blob.read")
    Sample.graph.IsRead ∧ Sample.graph.MentionsResources
      ∧ ∃ kept : Item → Bool, (∀ item, kept item = true ↔ Sample.graph.Kept target item)
        ∧ ∀ arena, List.Forall₂ (fun id pruned => ∃ original, Sample.graph.entity? id = some original
            ∧ Sample.graph.IsPruned target kept (Sample.graph.placeAmong kept) id original pruned)
          (Sample.graph.keptIds kept arena) ((Sample.graph.pruneTo target).arena arena).toList :=
  have isRead : Sample.graph.IsRead := ⟨_, Sample.accepted⟩
  ⟨isRead, Sample.mentionsResources, pruneTo_holds_kept isRead Sample.mentionsResources _⟩

end WitGraph.Graph
