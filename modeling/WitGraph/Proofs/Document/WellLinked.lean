/-
**Graphs that have been read.**

`Graph.WellLinked` collects what every graph that has been read from a document satisfies
(`wellLinked_of_isRead`): links stay within the arenas, no kind is left open, a world key is a name
or the interface that stands under it, and no two packages share a name.
-/

import WitGraph.Proofs.Document.Writable

namespace WitGraph

namespace Graph

/-- The graph has been read from a document. -/
def IsRead (graph : Graph) : Prop := ∃ symbols, ofSymbols symbols = .ok graph

/-- Links stay within the arenas, kinds are known, keys fit and packages have names of their own. -/
structure WellLinked (graph : Graph) : Prop where
  closed : graph.IsClosed
  known : ∀ id, graph.kind? id ≠ some .unknown
  keyed : ∀ id world, graph.world? id = some world → ∀ entry ∈ world.entries, ∀ interface,
    entry.1.interface? = some interface → entry.2.interface? = some interface
  named : (graph.packages.toList.map Package.name).Nodup

end Graph

namespace Document

variable {document : Document} {graph : Graph}

/-! ### Links -/

theorem LinkedIn.holds_of_mem_links {records : Document} (linked : document.LinkedIn records graph)
    {item link : Item} (member : link ∈ graph.links item) : document.Holds link := by
  obtain ⟨entity, found⟩ := (graph.holds_iff_entity? item).mp
    (Graph.holds_of_links (List.ne_nil_of_mem member))
  rw [Graph.links_of_entity? found] at member
  obtain ⟨arena, index⟩ := item
  have inside := Array.mem_toList_iff.mpr (Array.mem_of_getElem? found)
  cases arena with
  | package =>
    obtain ⟨record, -, -, isLinked⟩ := Success.exists_of_mem_right linked.packages inside
    exact holds_of_linkPackage isLinked member
  | world =>
    obtain ⟨record, -, isLinked⟩ := Success.exists_of_mem_right linked.worlds inside
    exact holds_of_linkWorld isLinked member
  | interface =>
    obtain ⟨record, -, isLinked⟩ := Success.exists_of_mem_right linked.interfaces inside
    exact holds_of_linkInterface isLinked member
  | type =>
    obtain ⟨record, -, isLinked⟩ := Success.exists_of_mem_right linked.types inside
    exact holds_of_linkType isLinked member

theorem Linked.isClosed (linked : document.Linked graph) : graph.IsClosed := by
  intro item link member
  have inside := linked.holds_of_mem_links member
  unfold Holds at inside
  rwa [linked.size_eq] at inside

/-! ### Package names -/

/-- Packages that can be entered by name have names of their own. -/
theorem nodup_of_enterNames {packages : List Package} {start : Nat}
    {names entered : OrderedMap Ident PackageId}
    (isEntered : Graph.enterNames names start packages = (entered, none)) :
    (names.keys ++ packages.map Package.name).Nodup := by
  induction packages generalizing start names with
  | nil =>
    rw [List.map_nil, List.append_nil]
    exact names.distinct
  | cons package rest ih =>
    unfold Graph.enterNames at isEntered
    split at isEntered
    · cases isEntered
    · rename_i fresh
      have absent : package.name ∉ names.keys := fun present =>
        fresh (names.contains_iff.mpr present)
      have later := ih isEntered
      rw [OrderedMap.keys_insert, if_neg absent, List.append_assoc] at later
      exact later

/-- Packages with names of their own are entered by name in their order. -/
theorem exists_enterNames {packages : List Package} (start : Nat) {names : OrderedMap Ident PackageId}
    (distinct : (names.keys ++ packages.map Package.name).Nodup) :
    ∃ entered, Graph.enterNames names start packages = (entered, none)
      ∧ entered.entries = names.entries
        ++ (packages.zipIdx start).map fun (package, index) => (package.name, ⟨index⟩) := by
  induction packages generalizing start names with
  | nil => exact ⟨names, rfl, by simp⟩
  | cons package rest ih =>
    have absent : package.name ∉ names.keys := fun present =>
      (List.nodup_append.mp distinct).2.2 _ present _ (List.mem_cons_self ..) rfl
    have fresh : names.contains package.name ≠ true := fun present =>
      absent (names.contains_iff.mp present)
    have later : ((names.insert package.name ⟨start⟩).keys ++ rest.map Package.name).Nodup := by
      rw [OrderedMap.keys_insert, if_neg absent, List.append_assoc]
      exact distinct
    obtain ⟨entered, areEntered, entries⟩ := ih (start + 1) later
    refine ⟨entered, ?_, ?_⟩
    · rw [Graph.enterNames, if_neg fresh, areEntered]
    · rw [entries, OrderedMap.entries_insert_of_not_mem absent, List.append_assoc]
      rfl

/-! ### Graphs -/

theorem Linked.known {json : Json} (found : ofJson? json = some document)
    (linked : document.Linked graph) (id : TypeId) : graph.kind? id ≠ some .unknown := by
  intro isUnknown
  obtain ⟨type, isType, unknown⟩ := Option.map_eq_some_iff.mp isUnknown
  have writable : TypeDef.IsWritable type :=
    isWritable_of_ofJson? found linked .type id type isType
  have isKind := writable.kind
  rw [unknown] at isKind
  exact isKind

theorem Linked.keyed (linked : document.Linked graph) {id : WorldId} {world : World}
    (isWorld : graph.world? id = some world) {entry : WorldKey × WorldItem}
    (member : entry ∈ world.entries) {interface : InterfaceId}
    (isKey : entry.1.interface? = some interface) : entry.2.interface? = some interface := by
  obtain ⟨record, -, isLinked⟩ := Success.exists_of_mem_right linked.worlds
    (Array.mem_toList_iff.mpr (Array.mem_of_getElem? isWorld))
  exact (exists_of_mem_linkWorld isLinked member).2 interface isKey

end Document

theorem Graph.isWritable_of_isRead {graph : Graph} (isRead : graph.IsRead) : graph.IsWritable := by
  obtain ⟨symbols, accepted⟩ := isRead
  obtain ⟨json, document, isDocument, isLinked⟩ := exists_of_ofSymbols accepted
  exact Document.isWritable_of_ofJson? isDocument (Document.link_eq_ok_iff.mp isLinked)

/-- **Every graph that has been read is well linked.** -/
theorem Graph.wellLinked_of_isRead {graph : Graph} (isRead : graph.IsRead) : graph.WellLinked := by
  obtain ⟨symbols, accepted⟩ := isRead
  obtain ⟨json, document, isDocument, isLinked⟩ := exists_of_ofSymbols accepted
  have linked := Document.link_eq_ok_iff.mp isLinked
  refine ⟨linked.isClosed, linked.known isDocument, ?_, ?_⟩
  · intro id world isWorld entry member interface isKey
    exact linked.keyed isWorld member isKey
  · exact (List.nodup_append.mp (Document.nodup_of_enterNames linked.names)).2.1

end WitGraph
