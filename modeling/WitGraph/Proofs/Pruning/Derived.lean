/-
**Graphs that have been read, pruned and copied.**

Pruning keeps a graph well linked (`WellLinked.pruneTo`) and enters its packages by name, as reading
does. So whatever has been done to a graph that was read (`Graph.IsDerived`), a deep copy of the result
is the result itself, and every id is the id of its own copy (`deepClone_isSame`).
-/

import WitGraph.Proofs.Copying.Whole
import WitGraph.Proofs.Document.Consistent
import WitGraph.Proofs.Pruning.SelfContained

namespace WitGraph.Graph

variable {graph : Graph}

/-! ### Derived graphs -/

/-- The graph has been read, or it has been obtained by pruning or by deep copies of such a graph. -/
inductive IsDerived : Graph → Prop
  | read {graph : Graph} (isRead : graph.IsRead) : IsDerived graph
  | pruned {graph : Graph} (derived : IsDerived graph) (target : Node) :
    IsDerived (graph.pruneTo target)
  | cloned {graph : Graph} (derived : IsDerived graph) : IsDerived graph.deepClone.1

/-- **Pruning keeps a graph well linked.** -/
theorem WellLinked.pruneTo (linked : graph.WellLinked) (target : Node) :
    (graph.pruneTo target).WellLinked := by
  obtain ⟨origin, via, isCopy⟩ := linked.exists_isCopyOf target
  refine ⟨linked.isClosed_pruneTo target, isCopy.kind?_ne_unknown linked.known, ?_,
    isCopy.nodup_names linked.named⟩
  intro id world found entry member interface isKey
  exact isCopy.keyed linked found member isKey

/-! ### Names of packages -/

/-- A graph that has been read has its packages entered by name already. -/
theorem IsRead.withPackageNames_eq (isRead : graph.IsRead) : graph.withPackageNames = graph := by
  have named := (wellLinked_of_isRead isRead).named
  obtain ⟨symbols, accepted⟩ := isRead
  obtain ⟨_, document, -, isLinked⟩ := exists_of_ofSymbols accepted
  have entries := (Document.link_eq_ok_iff.mp isLinked).packageNames
  have same : graph.withPackageNames.packageNames = graph.packageNames :=
    OrderedMap.ext ((entries_withPackageNames named).trans entries.symm)
  show { graph with packageNames := graph.withPackageNames.packageNames } = graph
  rw [same]

/-- Derived graphs are well linked, and their packages are entered by name. -/
theorem IsDerived.wellLinked_and_named (derived : graph.IsDerived) :
    graph.WellLinked ∧ graph.withPackageNames = graph := by
  induction derived with
  | read isRead => exact ⟨wellLinked_of_isRead isRead, isRead.withPackageNames_eq⟩
  | pruned derived target ih => exact ⟨ih.1.pruneTo target, rfl⟩
  | cloned derived ih =>
    rw [ih.1.closed.deepClone_eq, ih.2]
    exact ih

/-! ### Deep copies -/

/-- **A deep copy is the graph itself**, with the names of the packages in their order and the same
text, and the copy of an item has the same position in its arena. -/
theorem deepClone_isSame {graph : Graph} (derived : graph.IsDerived) :
    graph.deepClone.1 = graph ∧ graph.deepClone.1.text = graph.text
      ∧ ∀ {arena : Arena} (id : Id arena), graph.Holds id.item →
        graph.deepClone.2.position? id.item = some id.index := by
  obtain ⟨linked, named⟩ := derived.wellLinked_and_named
  have same : graph.deepClone.1 = graph := linked.closed.deepClone_eq.trans named
  exact ⟨same, congrArg text same, fun _ held => linked.closed.position?_deepClone held⟩

/-- The part of the document's graph that is related to its method, copied once and once again. -/
theorem deepClone_isSame_method :
    let pruned := Sample.graph.pruneTo (.function (.interface ⟨0⟩ "[method]blob.read"))
    pruned.deepClone.1.IsDerived ∧ pruned.deepClone.1.deepClone.1 = pruned.deepClone.1
      ∧ pruned.deepClone.1.deepClone.1.text = pruned.deepClone.1.text
      ∧ ∀ {arena : Arena} (id : Id arena), pruned.deepClone.1.Holds id.item →
        pruned.deepClone.1.deepClone.2.position? id.item = some id.index :=
  have isRead : Sample.graph.IsRead := ⟨_, Sample.accepted⟩
  have derived := (IsDerived.read isRead).pruned (.function (.interface ⟨0⟩ "[method]blob.read"))
  ⟨derived.cloned, deepClone_isSame derived.cloned⟩

end WitGraph.Graph
