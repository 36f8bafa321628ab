/-
**Adding and replacing entities.**

`Graph.push` puts an entity at the end of an arena and leaves the others (`size_push`,
`entity?_push_of_lt`). `Graph.setEntity` replaces one entity and leaves the others
(`entity?_setEntity_self`, `entity?_setEntity_of_ne`). Both can change places (`setEntity_comm`,
`setEntity_push`).
-/

import WitGraph.Proofs.Items

namespace WitGraph.Graph

variable (graph : Graph)

/-! ### Arenas -/

@[simp] theorem arena_setArena_self (arena : Arena) (entities : Array (Entity arena)) :
    (graph.setArena arena entities).arena arena = entities := by
  cases arena <;> rfl

theorem arena_setArena_of_ne {arena other : Arena} (differ : other ≠ arena)
    (entities : Array (Entity arena)) :
    (graph.setArena arena entities).arena other = graph.arena other := by
  cases arena <;> cases other <;> first | rfl | exact absurd rfl differ

@[simp] theorem packageNames_setArena (arena : Arena) (entities : Array (Entity arena)) :
    (graph.setArena arena entities).packageNames = graph.packageNames := by
  cases arena <;> rfl

@[simp] theorem size_empty (arena : Arena) : ({} : Graph).size arena = 0 := by
  cases arena <;> rfl

/-! ### Adding an entity -/

/-- Only the arena that gets an entity grows. -/
theorem size_push (arena other : Arena) (entity : Entity arena) :
    (graph.push arena entity).size other
      = graph.size other + if arena = other then 1 else 0 := by
  unfold push size
  by_cases same : arena = other
  · subst same
    rw [arena_setArena_self, Array.size_push, if_pos rfl]
  · rw [arena_setArena_of_ne _ (Ne.symm same), if_neg same, Nat.add_zero]

theorem entity?_push_of_lt {arena other : Arena} (entity : Entity arena) {id : Id other}
    (inside : id.index < graph.size other) :
    (graph.push arena entity).entity? id = graph.entity? id := by
  unfold push entity?
  unfold size at inside
  by_cases same : other = arena
  · subst same
    rw [arena_setArena_self, Array.getElem?_push_lt inside, Array.getElem?_eq_getElem inside]
  · rw [arena_setArena_of_ne _ same]

/-! ### Replacing an entity -/

@[simp] theorem size_setEntity {arena : Arena} (id : Id arena) (entity : Entity arena)
    (other : Arena) : (graph.setEntity id entity).size other = graph.size other := by
  unfold setEntity size
  by_cases same : other = arena
  · subst same
    rw [arena_setArena_self, Array.size_setIfInBounds]
  · rw [arena_setArena_of_ne _ same]

theorem entity?_setEntity_self {arena : Arena} {id : Id arena} (entity : Entity arena)
    (inside : id.index < graph.size arena) :
    (graph.setEntity id entity).entity? id = some entity := by
  unfold setEntity entity?
  rw [arena_setArena_self]
  exact Array.getElem?_setIfInBounds_self_of_lt inside

theorem entity?_setEntity_of_ne {arena other : Arena} {id : Id arena} (entity : Entity arena)
    {otherId : Id other} (differ : otherId.item ≠ id.item) :
    (graph.setEntity id entity).entity? otherId = graph.entity? otherId := by
  unfold setEntity entity?
  by_cases same : other = arena
  · subst same
    rw [arena_setArena_self]
    refine Array.getElem?_setIfInBounds_ne fun equal => differ ?_
    rw [Id.item, Id.item, equal]
  · rw [arena_setArena_of_ne _ same]

/-- Different entities can be replaced in either order. -/
theorem setEntity_comm {arena other : Arena} {id : Id arena} {otherId : Id other}
    (contents : Entity arena) (otherContents : Entity other) (differ : otherId.item ≠ id.item) :
    (graph.setEntity id contents).setEntity otherId otherContents
      = (graph.setEntity otherId otherContents).setEntity id contents := by
  unfold setEntity
  by_cases same : other = arena
  · subst same
    have apart : id.index ≠ otherId.index := fun equal => differ (by rw [Id.item, Id.item, equal])
    rw [arena_setArena_self, arena_setArena_self, Array.setIfInBounds_comm _ _ apart]
    cases other <;> rfl
  · rw [arena_setArena_of_ne _ same, arena_setArena_of_ne _ (Ne.symm same)]
    cases arena <;> cases other <;> first | rfl | exact absurd rfl same

/-- An entity can be replaced before or after another one is put at the end of an arena. -/
theorem setEntity_push {arena other : Arena} {id : Id arena} (contents : Entity arena)
    (entity : Entity other) (inside : id.index < graph.size arena) :
    (graph.push other entity).setEntity id contents
      = (graph.setEntity id contents).push other entity := by
  unfold push setEntity
  by_cases same : arena = other
  · subst same
    have replaced : ((graph.arena arena).push entity).setIfInBounds id.index contents
        = ((graph.arena arena).setIfInBounds id.index contents).push entity := by
      rw [Array.push_eq_append, Array.setIfInBounds_append_left inside, ← Array.push_eq_append]
    rw [arena_setArena_self, arena_setArena_self, replaced]
    cases arena <;> rfl
  · rw [arena_setArena_of_ne _ same, arena_setArena_of_ne _ (Ne.symm same)]
    cases arena <;> cases other <;> first | rfl | exact absurd rfl same

end WitGraph.Graph
