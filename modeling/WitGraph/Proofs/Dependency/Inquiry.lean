/-
**Asking one node after another.**

`Graph.dependsOn` finds all that a node reaches before it looks for the dependency there. The question can
also be asked of one node after another (`Graph.Inquiry`): nodes wait on a stack, functions among them, and
the one on top is compared with the dependency. If it is another one and has not been visited, its links
back are compared as well, and what it contains is put on the stack. The first match is the answer.

`answers_dependsOn` says that this comes to an end on every graph, with the answer that `dependsOn` gives.
An inquiry without an answer so far has come only to what the node reaches, and to all that its visited
nodes contain (`Inquiry.IsUnderWay`); so once nothing waits, it has come to everything.
-/

import Mathlib.Data.Finset.Card
import WitGraph.Proofs.Nodes

namespace WitGraph.Graph

variable {graph : Graph} {node dependency : Node}

/-! ### The steps of an inquiry -/

/-- The nodes that a node contains directly, in the order of its parts. -/
def inner (graph : Graph) : Node → List Node
  | .item item =>
    match graph.entity? item.id with
    | none => []
    | some entity => entity.nodes item.id
  | .function place =>
    match graph.function? place with
    | none => []
    | some function => function.mentionedIds.map fun id => .item id.item

/-- Whether the first node is linked back to the second one. -/
def isLinkedBack (graph : Graph) : Node → Node → Bool
  | .item item, .item target => (graph.backLinks item).contains target
  | _, _ => false

/-- How far an inquiry has come. -/
structure Inquiry where
  visited : List Node := []
  /-- The nodes that wait, the next one first. -/
  pending : List Node

/-- The next node gives an answer, or the inquiry goes on. -/
def Inquiry.step (graph : Graph) (dependency : Node) : Inquiry → Bool ⊕ Inquiry
  | ⟨_, []⟩ => .inl false
  | ⟨visited, next :: rest⟩ =>
    if next = dependency then .inl true
    else if next ∈ visited then .inr ⟨visited, rest⟩
    else if graph.isLinkedBack next dependency then .inl true
    else .inr ⟨next :: visited, (graph.inner next).reverse ++ rest⟩

/-- The inquiry comes to an end with an answer. -/
inductive Answers (graph : Graph) (dependency : Node) : Inquiry → Bool → Prop
  | now {inquiry : Inquiry} {answer : Bool} (stops : inquiry.step graph dependency = .inl answer) :
      Answers graph dependency inquiry answer
  | later {inquiry next : Inquiry} {answer : Bool} (goesOn : inquiry.step graph dependency = .inr next)
      (answers : Answers graph dependency next answer) : Answers graph dependency inquiry answer

theorem mem_inner_iff {other : Node} : other ∈ graph.inner node ↔ graph.Contains node other := by
  cases node with
  | item item =>
    show other ∈ graph.inner (.item item) ↔ graph.Contains (.item item.id.item) other
    rw [contains_item_iff]
    cases found : graph.entity? item.id <;> simp [inner, found]
  | function place =>
    refine Iff.trans ?_ contains_function_iff.symm
    cases found : graph.function? place <;> simp [inner, found, eq_comm]

theorem isLinkedBack_iff : graph.isLinkedBack node dependency = true ↔ graph.LinkedBack node dependency := by
  constructor
  · intro linked
    cases node with
    | item item =>
      cases dependency with
      | item target => exact linkedBack_of_mem_backLinks (List.contains_iff_mem.mp linked)
      | function place => cases linked
    | function place => cases linked
  · intro linked
    obtain ⟨item, target, rfl, rfl⟩ := linked.exists_items
    exact List.contains_iff_mem.mpr (mem_backLinks_of_linkedBack linked)

namespace Inquiry

variable {inquiry following : Inquiry} {answer : Bool}

/-- **What a step can do**: say no when nothing waits, say yes to a match, pass over a node that has been
visited, or visit the node. -/
theorem step_cases (graph : Graph) (dependency : Node) (inquiry : Inquiry) :
    (inquiry.pending = [] ∧ inquiry.step graph dependency = .inl false)
      ∨ ∃ next rest, inquiry.pending = next :: rest
        ∧ (((next = dependency ∨ graph.LinkedBack next dependency)
              ∧ inquiry.step graph dependency = .inl true)
          ∨ (next ∈ inquiry.visited ∧ inquiry.step graph dependency = .inr ⟨inquiry.visited, rest⟩)
          ∨ (next ∉ inquiry.visited ∧ next ≠ dependency ∧ ¬ graph.LinkedBack next dependency
              ∧ inquiry.step graph dependency
                = .inr ⟨next :: inquiry.visited, (graph.inner next).reverse ++ rest⟩)) := by
  obtain ⟨visited, pending⟩ := inquiry
  cases pending with
  | nil => exact Or.inl ⟨rfl, rfl⟩
  | cons next rest =>
    refine Or.inr ⟨next, rest, rfl, ?_⟩
    simp only [step]
    by_cases same : next = dependency
    · exact Or.inl ⟨Or.inl same, if_pos same⟩
    · rw [if_neg same]
      by_cases known : next ∈ visited
      · exact Or.inr (Or.inl ⟨known, if_pos known⟩)
      · rw [if_neg known]
        by_cases linked : graph.isLinkedBack next dependency = true
        · exact Or.inl ⟨Or.inr (isLinkedBack_iff.mp linked), if_pos linked⟩
        · exact Or.inr (Or.inr ⟨known, same, fun back => linked (isLinkedBack_iff.mpr back), if_neg linked⟩)

/-! ### The answer -/

/-- What an inquiry without an answer has come to. -/
structure IsUnderWay (graph : Graph) (node dependency : Node) (inquiry : Inquiry) : Prop where
  begun : node ∈ inquiry.visited ∨ node ∈ inquiry.pending
  reached : ∀ known, known ∈ inquiry.visited ∨ known ∈ inquiry.pending → graph.Reaches node known
  closed : ∀ known ∈ inquiry.visited, ∀ other, graph.Contains known other →
    other ∈ inquiry.visited ∨ other ∈ inquiry.pending
  /-- No visited node is a match. -/
  apart : ∀ known ∈ inquiry.visited, known ≠ dependency ∧ ¬ graph.LinkedBack known dependency

theorem isUnderWay_start (graph : Graph) (node dependency : Node) :
    IsUnderWay graph node dependency { pending := [node] } where
  begun := Or.inr (List.mem_singleton_self node)
  reached known either := by
    rcases either with inVisited | inPending
    · cases inVisited
    · rw [List.mem_singleton.mp inPending]
  closed _ member := by cases member
  apart _ member := by cases member

/-- A step that gives no answer keeps this. -/
theorem IsUnderWay.step (underWay : IsUnderWay graph node dependency inquiry)
    (goesOn : inquiry.step graph dependency = .inr following) :
    IsUnderWay graph node dependency following := by
  rcases inquiry.step_cases graph dependency with
    ⟨-, stops⟩ | ⟨next, rest, waits, ⟨-, stops⟩ | ⟨known, passes⟩ | ⟨-, differ, unlinked, visits⟩⟩
  · cases goesOn.symm.trans stops
  · cases goesOn.symm.trans stops
  · cases goesOn.symm.trans passes
    -- what waited is still there, or has been visited before
    have stays (other : Node) (either : other ∈ inquiry.visited ∨ other ∈ inquiry.pending) :
        other ∈ inquiry.visited ∨ other ∈ rest := by
      rw [waits, List.mem_cons] at either
      rcases either with inVisited | rfl | inRest
      · exact Or.inl inVisited
      · exact Or.inl known
      · exact Or.inr inRest
    refine ⟨stays node underWay.begun, fun other either => underWay.reached other ?_,
      fun other visited after contained => stays after (underWay.closed other visited after contained),
      underWay.apart⟩
    exact either.imp_right fun inRest => waits ▸ List.mem_cons_of_mem _ inRest
  · cases goesOn.symm.trans visits
    have isNext : graph.Reaches node next :=
      underWay.reached next (Or.inr (waits ▸ List.mem_cons_self ..))
    have mem_pending (other : Node) : other ∈ (graph.inner next).reverse ++ rest
        ↔ graph.Contains next other ∨ other ∈ rest := by
      rw [List.mem_append, List.mem_reverse, mem_inner_iff]
    have stays (other : Node) (either : other ∈ inquiry.visited ∨ other ∈ inquiry.pending) :
        other ∈ next :: inquiry.visited ∨ other ∈ (graph.inner next).reverse ++ rest := by
      rw [waits, List.mem_cons] at either
      rcases either with inVisited | rfl | inRest
      · exact Or.inl (List.mem_cons_of_mem _ inVisited)
      · exact Or.inl (List.mem_cons_self ..)
      · exact Or.inr ((mem_pending other).mpr (Or.inr inRest))
    refine ⟨stays node underWay.begun, ?_, ?_, ?_⟩
    · rintro other (visited | inPending)
      · rcases List.mem_cons.mp visited with rfl | inVisited
        · exact isNext
        · exact underWay.reached other (Or.inl inVisited)
      · rcases (mem_pending other).mp inPending with contained | inRest
        · exact isNext.tail contained
        · exact underWay.reached other (Or.inr (waits ▸ List.mem_cons_of_mem _ inRest))
    · intro other visited after contained
      rcases List.mem_cons.mp visited with rfl | inVisited
      · exact Or.inr ((mem_pending after).mpr (Or.inl contained))
      · exact stays after (underWay.closed other inVisited after contained)
    · intro other visited
      rcases List.mem_cons.mp visited with rfl | inVisited
      · exact ⟨differ, unlinked⟩
      · exact underWay.apart other inVisited

/-- **An answer is yes if and only if the node reaches a match.** -/
theorem IsUnderWay.answer_iff (underWay : IsUnderWay graph node dependency inquiry)
    (stops : inquiry.step graph dependency = .inl answer) :
    answer = true ↔ ∃ reached, graph.Reaches node reached
      ∧ (reached = dependency ∨ graph.LinkedBack reached dependency) := by
  rcases inquiry.step_cases graph dependency with
    ⟨empty, no⟩ | ⟨next, rest, waits, ⟨isMatch, yes⟩ | ⟨-, passes⟩ | ⟨-, -, -, visits⟩⟩
  · cases stops.symm.trans no
    refine iff_of_false Bool.false_ne_true fun ⟨reached, path, isMatch⟩ => ?_
    have visited (other : Node) (either : other ∈ inquiry.visited ∨ other ∈ inquiry.pending) :
        other ∈ inquiry.visited := by simpa [empty] using either
    have isVisited : reached ∈ inquiry.visited := by
      clear isMatch
      induction path with
      | refl => exact visited node underWay.begun
      | tail _ contained ih => exact visited _ (underWay.closed _ ih _ contained)
    obtain ⟨differ, unlinked⟩ := underWay.apart reached isVisited
    exact isMatch.elim differ unlinked
  · cases stops.symm.trans yes
    exact iff_of_true rfl
      ⟨next, underWay.reached next (Or.inr (waits ▸ List.mem_cons_self ..)), isMatch⟩
  · cases stops.symm.trans passes
  · cases stops.symm.trans visits

/-! ### The end -/

/-- The nodes of the graph that have not been visited. -/
def unvisited (graph : Graph) (visited : List Node) : Finset Node :=
  graph.nodes.toFinset.filter (· ∉ visited)

theorem unvisited_cons_subset (graph : Graph) (next : Node) (visited : List Node) :
    unvisited graph (next :: visited) ⊆ unvisited graph visited := by
  refine Finset.monotone_filter_right _ fun other _ absent => ?_
  exact fun member => absent (List.mem_cons_of_mem _ member)

theorem card_unvisited_cons_lt {next : Node} {visited : List Node} (isNode : next ∈ graph.nodes)
    (fresh : next ∉ visited) :
    (unvisited graph (next :: visited)).card < (unvisited graph visited).card := by
  refine Finset.card_lt_card ((Finset.ssubset_iff_of_subset (unvisited_cons_subset ..)).mpr ⟨next, ?_, ?_⟩)
  · exact Finset.mem_filter.mpr ⟨List.mem_toFinset.mpr isNode, fresh⟩
  · exact fun member => (Finset.mem_filter.mp member).2 (List.mem_cons_self ..)

/-- Only nodes of the graph contain anything. -/
theorem mem_nodes_of_inner (nonempty : graph.inner node ≠ []) : node ∈ graph.nodes := by
  obtain ⟨other, member⟩ := List.exists_mem_of_ne_nil _ nonempty
  have contained := mem_inner_iff.mp member
  rw [mem_nodes_iff]
  cases node with
  | item item => exact holds_of_contains contained
  | function place =>
    obtain ⟨function, found, -⟩ := contains_function_iff.mp contained
    exact ⟨function, found⟩

/-- **Every inquiry comes to an end**: no node of the graph is visited twice, and between two visits the
stack gets smaller. -/
theorem exists_answers (graph : Graph) (dependency : Node) (inquiry : Inquiry) :
    ∃ answer, graph.Answers dependency inquiry answer := by
  obtain ⟨visited, pending⟩ := inquiry
  obtain ⟨bound, within⟩ : ∃ bound, (unvisited graph visited).card ≤ bound := ⟨_, Nat.le_refl _⟩
  induction bound using Nat.strong_induction_on generalizing visited pending with
  | _ bound fewerIh =>
    induction pending generalizing visited with
    | nil => exact ⟨false, .now rfl⟩
    | cons next rest restIh =>
      rcases step_cases graph dependency ⟨visited, next :: rest⟩ with
        ⟨empty, -⟩ | ⟨_, _, ⟨⟩, ⟨-, yes⟩ | ⟨-, passes⟩ | ⟨fresh, -, -, visits⟩⟩
      · cases empty
      · exact ⟨true, .now yes⟩
      · exact (restIh visited within).imp fun _ => .later passes
      · have fewer := Finset.card_le_card (unvisited_cons_subset graph next visited)
        by_cases leaf : graph.inner next = []
        · rw [leaf] at visits
          exact (restIh (next :: visited) (Nat.le_trans fewer within)).imp fun _ => .later visits
        · have less := card_unvisited_cons_lt (mem_nodes_of_inner leaf) fresh
          exact (fewerIh _ (Nat.lt_of_lt_of_le less within) _ _ (Nat.le_refl _)).imp fun _ => .later visits

end Inquiry

/-- **Asking one node after another gives the answer of `dependsOn`**, and always comes to an end. -/
theorem answers_dependsOn (graph : Graph) (node : Node) (present : dependency ∈ graph.nodes) :
    graph.Answers dependency { pending := [node] } (graph.dependsOn node dependency) := by
  obtain ⟨answer, answers⟩ := Inquiry.exists_answers graph dependency { pending := [node] }
  have underWay := Inquiry.isUnderWay_start graph node dependency
  have isAnswer : answer = graph.dependsOn node dependency := by
    rw [Bool.eq_iff_iff, dependsOn_iff graph node present]
    generalize ({ pending := [node] } : Inquiry) = inquiry at answers underWay
    induction answers with
    | now stops => exact underWay.answer_iff stops
    | later goesOn _ ih => exact ih (underWay.step goesOn)
  exact isAnswer ▸ answers

end WitGraph.Graph
