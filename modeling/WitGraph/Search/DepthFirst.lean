/-
**Depth-first search.**

All questions about what an item reaches are answered by one search. `visit` enters a vertex that
has not been entered before, visits what follows it from left to right, and then finishes the
vertex. A `Progress` records the vertices in the order in which they were discovered and in the
order in which they were finished, the latest first in both.

* `discovery` lists what is reached from some roots, each vertex before what follows it first;
* `Progress.finished` is the order in which a vertex comes after everything that follows it, as far
  as circles allow.

The search goes at most `depth` vertices deep. Since no vertex is entered twice, the number of
vertices that have successors bounds the depth that can be needed.
-/

import WitGraph.Search.Marks

namespace WitGraph

/-- Vertices that have distinct numbers. -/
class Numbered (α : Type) where
  number : α → Nat
  injective : ∀ {first second : α}, number first = number second → first = second

/-- How far a search has come. -/
structure Progress (α : Type) where
  /-- The vertices that have been entered. -/
  entered : Marks := .none
  /-- The vertices in the order of their discovery, the latest first. -/
  discovered : List α := []
  /-- The vertices in the order in which they were finished, the latest first. -/
  finished : List α := []

namespace Progress

variable {α : Type} [Numbered α]

/-- Whether a vertex has been entered. -/
def hasEntered (progress : Progress α) (vertex : α) : Bool :=
  progress.entered.has (Numbered.number vertex)

/-- The progress once a vertex has been entered. -/
def enter (progress : Progress α) (vertex : α) : Progress α :=
  { progress with
    entered := progress.entered.mark (Numbered.number vertex)
    discovered := vertex :: progress.discovered }

/-- The progress once a vertex has been finished. -/
def finish (progress : Progress α) (vertex : α) : Progress α :=
  { progress with finished := vertex :: progress.finished }

end Progress

namespace Search

variable {α : Type} [Numbered α]

/-- Visits a vertex unless it has been entered. -/
def visit (next : α → List α) : Nat → Progress α → α → Progress α
  | 0, progress, _ => progress
  | depth + 1, progress, vertex =>
    if progress.hasEntered vertex then progress
    else ((next vertex).foldl (visit next depth) (progress.enter vertex)).finish vertex

/-- Visits vertices from left to right. -/
def visitAll (next : α → List α) (depth : Nat) (progress : Progress α) (vertices : List α) :
    Progress α :=
  vertices.foldl (visit next depth) progress

/-- What is reached from the roots, in the order of discovery. -/
def discovery (next : α → List α) (depth : Nat) (roots : List α) : List α :=
  (visitAll next depth {} roots).discovered.reverse

end Search

end WitGraph
