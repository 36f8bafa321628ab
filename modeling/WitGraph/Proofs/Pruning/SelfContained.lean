/-
**Pruned graphs are self-contained.**

* `Graph.IsSelfContained`: links stay within the arenas, kinds are known, and the packages are
  entered by name;
* `Graph.IsCopyOf`: a graph consists of renamed copies of items of another one, one of each;
* `pruneTo_isSelfContained`: whatever the target, a graph that has been read is pruned to such a
  graph.

Nothing is assumed of the graph beyond that it has been read. A copy may need more items than were
kept, such as the resource of a method whose signature does not mention it; these are copied as they
stand, and the copy is complete all the same (`Copier.transfer_transfers`).
-/

import WitGraph.Proofs.Copying.Transfer
import WitGraph.Proofs.Document.WellLinked
import WitGraph.Proofs.Pruning.Contents

namespace WitGraph

/-! ### Graphs of copies -/

/-- Every entity of a graph is a renamed copy of an entity of another one, perhaps with fewer
entries: `origin` leads from a copy to its original, and `via` from an original to its copy. -/
structure Graph.IsCopyOf (copy source : Graph) (origin via : Renaming) : Prop where
  copied : ∀ {arena : Arena} (id : Id arena) (entity : Entity arena),
    copy.entity? id = some entity →
      ∃ original, source.entity? (origin id) = some original ∧ entity.IsCopy via original
  via_origin : ∀ {arena : Arena} (id : Id arena), copy.Holds id.item → via (origin id) = id
  origin_via : ∀ {arena : Arena} (id : Id arena), copy.Holds (via id).item → origin (via id) = id

/-- Links stay within the arenas, kinds are known, and the packages are entered by name in their
order. -/
structure Graph.IsSelfContained (graph : Graph) : Prop where
  closed : graph.IsClosed
  known : ∀ id, graph.kind? id ≠ some .unknown
  named : graph.packageNames.entries
    = graph.packages.toList.zipIdx.map fun (package, index) => (package.name, ⟨index⟩)

namespace Graph

variable {graph source : Graph} {origin via : Renaming}

/-! ### Entering packages by name -/

theorem entity?_withPackageNames {arena : Arena} (id : Id arena) :
    graph.withPackageNames.entity? id = graph.entity? id := by
  cases arena <;> rfl

theorem holds_withPackageNames {item : Item} :
    graph.withPackageNames.Holds item ↔ graph.Holds item := by
  obtain ⟨arena, index⟩ := item
  cases arena <;> rfl

theorem links_withPackageNames {item : Item} :
    graph.withPackageNames.links item = graph.links item := by
  unfold links
  rw [entity?_withPackageNames]

theorem IsClosed.withPackageNames (closed : graph.IsClosed) : graph.withPackageNames.IsClosed := by
  intro item link member
  rw [links_withPackageNames] at member
  exact holds_withPackageNames.mpr (closed item link member)

theorem IsCopyOf.withPackageNames (isCopy : graph.IsCopyOf source origin via) :
    graph.withPackageNames.IsCopyOf source origin via where
  copied id entity found := isCopy.copied id entity (entity?_withPackageNames id ▸ found)
  via_origin id inside := isCopy.via_origin id (holds_withPackageNames.mp inside)
  origin_via id inside := isCopy.origin_via id (holds_withPackageNames.mp inside)

/-- Packages with names of their own are entered in their order. -/
theorem entries_withPackageNames (named : (graph.packages.toList.map Package.name).Nodup) :
    graph.withPackageNames.packageNames.entries
      = graph.packages.toList.zipIdx.map fun (package, index) => (package.name, ⟨index⟩) := by
  refine OrderedMap.entries_ofList ?_
  have names : graph.packages.toList.map Package.name
      = (graph.packages.toList.zipIdx.map Prod.fst).map Package.name := by
    rw [List.zipIdx_map_fst]
  rw [names, List.map_map] at named
  rw [List.map_map]
  exact named

end Graph

namespace Copier

variable {copier : Copier}

/-- Every copy is filled with what its original contains, perhaps without some entries. -/
structure Completes (graph : Graph) (copier : Copier) : Prop where
  tidy : copier.Tidy
  filled : ∀ item, copier.Copied item → ∃ original trimmed : Entity item.arena,
    graph.entity? item.id = some original ∧ trimmed.Trims original ∧ copier.IsFilled item trimmed

/-- What stands in the target is the renamed rest of an original. -/
theorem Completes.exists_of_entity? {graph : Graph} (complete : copier.Completes graph)
    {arena : Arena} {id : Id arena} {entity : Entity arena}
    (found : copier.target.entity? id = some entity) :
    ∃ original trimmed : Entity arena, graph.entity? (copier.origin id) = some original
      ∧ trimmed.Trims original ∧ (∀ link ∈ trimmed.links, copier.Copied link)
      ∧ entity = trimmed.rename copier.renamed := by
  have inside : copier.target.Holds id.item := (Graph.holds_iff_entity? _ _).mpr ⟨entity, found⟩
  have copied := complete.tidy.copied_origin inside
  obtain ⟨original, trimmed, isOriginal, trims, filled⟩ := complete.filled _ copied
  have held := filled.held
  have place : copier.renamed (copier.origin id).item.id = id :=
    (complete.tidy.place_eq_renamed copied).symm.trans (complete.tidy.place_origin inside)
  rw [place] at held
  exact ⟨original, trimmed, isOriginal, trims, filled.links, Option.some.inj (found.symm.trans held)⟩

theorem Completes.isClosed {graph : Graph} (complete : copier.Completes graph) :
    copier.target.IsClosed := by
  intro item link member
  obtain ⟨entity, found⟩ := (Graph.holds_iff_entity? _ item).mp
    (Graph.holds_of_links (List.ne_nil_of_mem member))
  rw [Graph.links_of_entity? found] at member
  obtain ⟨_, trimmed, -, -, links, rfl⟩ := complete.exists_of_entity? found
  obtain ⟨before, isLink, rfl⟩ := Entity.exists_of_mem_links_rename member
  exact complete.tidy.holds_renamed (links before isLink)

theorem Completes.isCopyOf {graph : Graph} (complete : copier.Completes graph) :
    copier.target.IsCopyOf graph copier.origin copier.place where
  copied id entity found := by
    obtain ⟨original, trimmed, isOriginal, trims, links, rfl⟩ := complete.exists_of_entity? found
    have agree : Renaming.Agree copier.place copier.renamed trimmed.links := fun link member =>
      complete.tidy.place_eq_renamed (links link member)
    refine ⟨original, isOriginal, ?_⟩
    rw [← Entity.rename_congr agree]
    exact Entity.isCopy_of_trims trims (complete.tidy.separates links agree)
  via_origin id inside := complete.tidy.place_origin inside
  origin_via id inside := complete.tidy.origin_place inside

end Copier

/-! ### What a copy inherits -/

namespace Graph.IsCopyOf

variable {copy source : Graph} {origin via : Renaming}

theorem kind?_ne_unknown (isCopy : copy.IsCopyOf source origin via)
    (known : ∀ id, source.kind? id ≠ some .unknown) (id : TypeId) :
    copy.kind? id ≠ some .unknown := by
  intro isUnknown
  obtain ⟨type, found, unknown⟩ := Option.map_eq_some_iff.mp isUnknown
  obtain ⟨original, isOriginal, same⟩ := isCopy.copied id type found
  cases (same : type = TypeDef.rename via original)
  refine known (origin id) (Option.map_eq_some_iff.mpr ⟨original, isOriginal, ?_⟩)
  exact Kind.rename_eq_unknown_iff.mp unknown

theorem packageName?_eq (isCopy : copy.IsCopyOf source origin via) {id : PackageId} {name : Ident}
    (named : copy.packageName? id = some name) : source.packageName? (origin id) = some name := by
  obtain ⟨package, found, isName⟩ := Option.map_eq_some_iff.mp named
  obtain ⟨original, isOriginal, -, -, same⟩ := isCopy.copied id package found
  refine Option.map_eq_some_iff.mpr ⟨original, isOriginal, ?_⟩
  rw [← isName]
  exact (congrArg Package.name same).symm

/-- An entry of a copy whose key is an interface has this interface under it, if that is so of the
original. -/
theorem keyed (isCopy : copy.IsCopyOf source origin via) (linked : source.WellLinked) {id : WorldId}
    {world : World} (found : copy.world? id = some world) {entry : WorldKey × WorldItem}
    (member : entry ∈ world.entries) {interface : InterfaceId}
    (isKey : entry.1.interface? = some interface) : entry.2.interface? = some interface := by
  obtain ⟨original, isOriginal, copied⟩ := isCopy.copied id world found
  obtain ⟨⟨key, item⟩, inside, rfl⟩ := Entity.IsCopy.exists_entry copied member
  have keyed := linked.keyed _ original isOriginal (key, item) inside
  cases key with
  | name text => cases isKey
  | interface before =>
    have isInterface : item.interface? = some before := keyed before rfl
    cases item <;> cases isInterface
    exact isKey

/-- The packages of a copy have names of their own if those of the source have. -/
theorem nodup_names (isCopy : copy.IsCopyOf source origin via)
    (named : (source.packages.toList.map Package.name).Nodup) :
    (copy.packages.toList.map Package.name).Nodup := by
  have atIndex (graph : Graph) (index : Nat) :
      (graph.packages.toList.map Package.name)[index]? = graph.packageName? ⟨index⟩ := by
    simp [packageName?, package?]
  refine List.nodup_iff_getElem?_ne_getElem?.mpr fun first second before inside same => ?_
  obtain ⟨name, isSecond⟩ : ∃ name, copy.packageName? ⟨second⟩ = some name := by
    rw [← atIndex]
    exact ⟨_, List.getElem?_eq_getElem inside⟩
  have isFirst : copy.packageName? ⟨first⟩ = some name := by
    rw [← atIndex, same, atIndex, isSecond]
  have holds {index : Nat} (inArena : index < copy.packages.size) :
      copy.Holds (Id.item (⟨index⟩ : PackageId)) := inArena
  have sameOrigin : origin (⟨first⟩ : PackageId) = origin (⟨second⟩ : PackageId) := by
    have firstName := isCopy.packageName?_eq isFirst
    have secondName := isCopy.packageName?_eq isSecond
    rw [← atIndex] at firstName secondName
    obtain ⟨inSource, -⟩ := List.getElem?_eq_some_iff.mp firstName
    have sameIndex := (List.getElem?_inj inSource named).mp (firstName.trans secondName.symm)
    exact congrArg Id.mk sameIndex
  have inside : second < copy.packages.size := by simpa using inside
  have back := congrArg (fun id : PackageId => via id) sameOrigin
  simp only [isCopy.via_origin _ (holds inside),
    isCopy.via_origin _ (holds (Nat.lt_trans before inside))] at back
  exact absurd (congrArg Id.index back) (Nat.ne_of_lt before)

end Graph.IsCopyOf

/-! ### Pruned graphs -/

namespace Pruning

variable {pruning : Pruning}

/-- The items that are kept, in the order of the graph. -/
def keptItems (pruning : Pruning) : List Item :=
  pruning.graph.items.filter pruning.kept.hasEntered

theorem holds_of_mem_keptItems {item : Item} (member : item ∈ pruning.keptItems) :
    pruning.graph.Holds item :=
  (Graph.mem_items_iff _ _).mp (List.mem_filter.mp member).1

/-- A kept item of a closed graph has contents, which refer to items of the graph. -/
theorem exists_of_mem_keptItems (pruning : Pruning) (closed : pruning.graph.IsClosed) {item : Item}
    (member : item ∈ pruning.keptItems) :
    ∃ original trimmed : Entity item.arena, pruning.graph.entity? item.id = some original
      ∧ pruning.contents? pruning.kept.hasEntered item = some trimmed ∧ trimmed.Trims original
      ∧ ∀ link ∈ trimmed.links, pruning.graph.Holds link := by
  obtain ⟨original, found⟩ := (Graph.holds_iff_entity? _ _).mp (holds_of_mem_keptItems member)
  obtain ⟨trimmed, contents, trims⟩ := pruning.exists_contents? pruning.kept.hasEntered found
  refine ⟨original, trimmed, found, contents, trims, fun link isLink => closed item link ?_⟩
  rw [Graph.links_of_entity? found]
  exact trims.links_subset isLink

/-- A pruning of a closed graph fills every copy. -/
theorem transfers_copier (pruning : Pruning) (closed : pruning.graph.IsClosed) :
    Copier.Transfers pruning.graph pruning.keptItems (pruning.contents? pruning.kept.hasEntered)
      pruning.copier := by
  refine Copier.transfer_transfers closed (fun _ => holds_of_mem_keptItems) fun item member => ?_
  obtain ⟨_, trimmed, -, contents, -, holds⟩ := pruning.exists_of_mem_keptItems closed member
  exact ⟨trimmed, contents, holds⟩

/-- A pruning of a closed graph is complete. -/
theorem completes_copier (pruning : Pruning) (closed : pruning.graph.IsClosed) :
    Copier.Completes pruning.graph pruning.copier := by
  have transfers := pruning.transfers_copier closed
  refine ⟨transfers.tidy, fun item copied => ?_⟩
  rcases transfers.others item copied with member | ⟨entity, isEntity, filled⟩
  · obtain ⟨original, trimmed, found, contents, trims, -⟩ :=
      pruning.exists_of_mem_keptItems closed member
    exact ⟨original, trimmed, found, trims, transfers.listed item member trimmed contents⟩
  · exact ⟨entity, entity, isEntity, .refl entity, filled⟩

end Pruning

namespace Graph

theorem WellLinked.isClosed_pruneTo {graph : Graph} (linked : graph.WellLinked) (target : Node) :
    (graph.pruneTo target).IsClosed :=
  ((Pruning.start graph target).completes_copier linked.closed).isClosed.withPackageNames

/-- The id that the copy of an item has in the pruned graph. -/
def copyId (graph : Graph) (target : Node) : Renaming := (Pruning.start graph target).copier.place

/-- The id of the item of which an item of the pruned graph is the copy. -/
def originalId (graph : Graph) (target : Node) : Renaming := (Pruning.start graph target).copier.origin

/-- A pruned graph consists of copies of items of its source. -/
theorem WellLinked.isCopyOf_pruneTo {graph : Graph} (linked : graph.WellLinked) (target : Node) :
    (graph.pruneTo target).IsCopyOf graph (graph.originalId target) (graph.copyId target) :=
  ((Pruning.start graph target).completes_copier linked.closed).isCopyOf.withPackageNames

theorem WellLinked.exists_isCopyOf {graph : Graph} (linked : graph.WellLinked) (target : Node) :
    ∃ origin via : Renaming, (graph.pruneTo target).IsCopyOf graph origin via :=
  ⟨_, _, linked.isCopyOf_pruneTo target⟩

/-- **A pruned graph is self-contained**, and it consists of renamed copies of items of the graph,
one of each. -/
theorem pruneTo_isSelfContained {graph : Graph} (isRead : graph.IsRead) (target : Node) :
    (graph.pruneTo target).IsSelfContained
      ∧ ∃ origin via : Renaming, (graph.pruneTo target).IsCopyOf graph origin via := by
  have linked := wellLinked_of_isRead isRead
  obtain ⟨origin, via, isCopy⟩ := linked.exists_isCopyOf target
  refine ⟨⟨linked.isClosed_pruneTo target, ?_, ?_⟩, origin, via, isCopy⟩
  · exact isCopy.kind?_ne_unknown linked.known
  · exact entries_withPackageNames (isCopy.nodup_names linked.named)

/-- The part of the document's graph that is related to its method. -/
theorem pruneTo_isSelfContained_method :
    let target : Node := .function (.interface ⟨0⟩ "[method]blob.read")
    Sample.graph.IsRead ∧ (Sample.graph.pruneTo target).IsSelfContained
      ∧ ∃ origin via : Renaming, (Sample.graph.pruneTo target).IsCopyOf Sample.graph origin via :=
  have isRead : Sample.graph.IsRead := ⟨_, Sample.accepted⟩
  ⟨isRead, pruneTo_isSelfContained isRead _⟩

end Graph

end WitGraph
