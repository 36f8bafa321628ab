/-
**Searching by a list of tasks.**

A depth-first search needs no recursion: it may keep a list of the tasks that are left, a task being to
visit a vertex or to finish it. `Worklist.step` takes the first task. A vertex that is entered is
replaced by what follows it and, behind that, by the task to finish it, so a vertex may be pending many
times, and only the first visit enters it.

`leadsTo_visitAll` says that the tasks run out, circles or not, and that `visitAll` is what has been done
then, if it may go deep enough.
-/

import Mathlib.Logic.Function.Iterate
import WitGraph.Proofs.Search

namespace WitGraph.Search

/-- What is left to do at a vertex. -/
inductive Task (α : Type) where
  | visit (vertex : α)
  | finish (vertex : α)

/-- A search that is under way. -/
structure Worklist (α : Type) where
  progress : Progress α
  /-- What is left to do, the next task first. -/
  pending : List (Task α)

namespace Worklist

variable {α : Type} [Numbered α]

/-- The search after its next task. -/
def step (next : α → List α) : Worklist α → Worklist α
  | ⟨progress, []⟩ => ⟨progress, []⟩
  | ⟨progress, .visit vertex :: rest⟩ =>
    if progress.hasEntered vertex then ⟨progress, rest⟩
    else ⟨progress.enter vertex, (next vertex).map .visit ++ .finish vertex :: rest⟩
  | ⟨progress, .finish vertex :: rest⟩ => ⟨progress.finish vertex, rest⟩

/-- Some number of tasks leads from one worklist to another. -/
def LeadsTo (next : α → List α) (first last : Worklist α) : Prop :=
  ∃ steps, (step next)^[steps] first = last

variable {next : α → List α} {first second third : Worklist α}

theorem LeadsTo.refl : LeadsTo next first first := ⟨0, rfl⟩

theorem LeadsTo.trans (before : LeadsTo next first second) (after : LeadsTo next second third) :
    LeadsTo next first third := by
  obtain ⟨early, rfl⟩ := before
  obtain ⟨late, rfl⟩ := after
  exact ⟨late + early, Function.iterate_add_apply _ _ _ _⟩

theorem leadsTo_step : LeadsTo next first (first.step next) := ⟨1, rfl⟩

/-! ### The end of a search -/

variable {vertices : List α}

/-- **The tasks run out**, and what has been done then is what a search that may go deep enough does. -/
theorem leadsTo_visitAll (whole : ∀ vertex, next vertex ≠ [] → vertex ∈ vertices) (depth : Nat)
    (progress : Progress α) (roots : List α) (rest : List (Task α))
    (enough : progress.unentered vertices < depth) :
    LeadsTo next ⟨progress, roots.map .visit ++ rest⟩ ⟨visitAll next depth progress roots, rest⟩ := by
  -- as for `explores_visitAll`, from a root to what follows it and from root to root
  induction depth generalizing progress roots rest with
  | zero => exact absurd enough (Nat.not_lt_zero _)
  | succ depth ih =>
    induction roots generalizing progress with
    | nil => exact .refl
    | cons root others othersIh =>
      have explored := explores_visitAll whole (depth + 1) progress [root] enough
      have later := othersIh (visit next (depth + 1) progress root)
        (Nat.lt_of_le_of_lt (Progress.unentered_le vertices explored.kept) enough)
      refine LeadsTo.trans (leadsTo_step) (LeadsTo.trans ?_ later)
      by_cases entered : progress.hasEntered root = true
      · simp only [List.map_cons, List.cons_append, step, visit, entered, if_true]
        exact .refl
      · simp only [List.map_cons, List.cons_append, step, visit, entered]
        have inner : LeadsTo next
            ⟨progress.enter root, (next root).map .visit ++ .finish root :: (others.map .visit ++ rest)⟩
            ⟨visitAll next depth (progress.enter root) (next root),
              .finish root :: (others.map .visit ++ rest)⟩ := by
          by_cases final : next root = []
          · rw [final]
            exact .refl
          · have fewer := Progress.unentered_enter_lt (whole root final) entered
            exact ih (progress.enter root) (next root) _ (by omega)
        exact inner.trans leadsTo_step

end Worklist

end WitGraph.Search
