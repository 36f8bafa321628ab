/-
**Computations that succeed.**

A computation that may fail succeeds exactly if each of its steps does. `bind_eq_ok_iff` says so for
one step and `mapM_eq_ok_iff`, `mapM_eq_some_iff` for a step taken at each element of a list;
`exists_foldlM` is for steps that are taken one after another along a list.

A computation that fails has one fault, that of the first step that fails: `fault?_bind` and
`fault?_mapM` say so.

`Carries` compares two steps, of which the second one succeeds on changed elements where the first one does.
-/

import Mathlib.Data.List.Forall2

namespace WitGraph.Success

variable {ε δ α β γ : Type}

/-- Two steps succeed if the first one does and then the second one. -/
theorem bind_eq_ok_iff {first : Except ε α} {second : α → Except ε β} {value : β} :
    (first >>= second) = .ok value ↔ ∃ found, first = .ok found ∧ second found = .ok value := by
  cases first with
  | error fault =>
    constructor
    · intro failed
      cases failed
    · rintro ⟨_, failed, -⟩
      cases failed
  | ok found =>
    constructor
    · intro rest
      exact ⟨found, rfl, rest⟩
    · rintro ⟨_, ⟨rfl⟩, rest⟩
      exact rest

theorem pure_eq_ok_iff {first value : α} : (pure first : Except ε α) = .ok value ↔ first = value :=
  ⟨fun same => by cases same; rfl, fun same => by rw [same]; rfl⟩

/-- A step after which something is returned succeeds with what is made of its value. -/
theorem bind_return_eq_ok_iff {first : Except ε α} {make : α → β} {value : β} :
    (first >>= fun found => pure (make found)) = .ok value
      ↔ ∃ found, first = .ok found ∧ make found = value := by
  rw [bind_eq_ok_iff]
  exact exists_congr fun found => and_congr_right fun _ => pure_eq_ok_iff

theorem map_eq_ok_iff {first : Except ε α} {make : α → β} {value : β} :
    first.map make = .ok value ↔ ∃ found, first = .ok found ∧ make found = value :=
  bind_return_eq_ok_iff

/-- A step succeeds at all elements of a list if it succeeds at each of them. -/
theorem mapM_eq_ok_iff {step : α → Except ε β} {list : List α} {values : List β} :
    list.mapM step = .ok values
      ↔ List.Forall₂ (fun element value => step element = .ok value) list values := by
  induction list generalizing values with
  | nil =>
    rw [List.mapM_nil, pure_eq_ok_iff, List.forall₂_nil_left_iff, eq_comm]
  | cons first rest ih =>
    rw [List.mapM_cons, bind_eq_ok_iff, List.forall₂_cons_left_iff]
    constructor
    · rintro ⟨value, found, others⟩
      obtain ⟨values, foundOthers, same⟩ := bind_eq_ok_iff.mp others
      exact ⟨value, values, found, ih.mp foundOthers, (pure_eq_ok_iff.mp same).symm⟩
    · rintro ⟨value, values, found, others, rfl⟩
      exact ⟨value, found, bind_eq_ok_iff.mpr ⟨values, ih.mpr others, rfl⟩⟩

theorem mapM_eq_some_iff {step : α → Option β} {list : List α} {values : List β} :
    list.mapM step = some values
      ↔ List.Forall₂ (fun element value => step element = some value) list values := by
  induction list generalizing values with
  | nil => simp [eq_comm]
  | cons first rest ih =>
    rw [List.mapM_cons, List.forall₂_cons_left_iff]
    simp only [Option.bind_eq_bind, Option.bind_eq_some_iff, Option.pure_def, Option.some.injEq]
    constructor
    · rintro ⟨value, found, values, foundOthers, rfl⟩
      exact ⟨value, values, found, ih.mp foundOthers, rfl⟩
    · rintro ⟨value, values, found, others, rfl⟩
      exact ⟨value, found, values, ih.mpr others, rfl⟩

/-- Steps along a list are the same steps along its image. -/
theorem foldlM_map_congr {step : β → α → Except ε β} {other : β → γ → Except ε β} {change : α → γ}
    {list : List α}
    (same : ∀ element ∈ list, ∀ state, other state (change element) = step state element)
    (state : β) : (list.map change).foldlM other state = list.foldlM step state := by
  induction list generalizing state with
  | nil => rfl
  | cons first rest ih =>
    rw [List.map_cons, List.foldlM_cons, List.foldlM_cons, same first (List.mem_cons_self ..)]
    exact congrArg (step state first >>= ·) (funext fun next =>
      ih (fun element inside => same element (List.mem_cons_of_mem _ inside)) next)

/-- Steps along a list succeed if each of them does. -/
theorem exists_foldlM {step : β → α → Except ε β} {list : List α}
    (each : ∀ element ∈ list, ∀ state, ∃ next, step state element = .ok next) (state : β) :
    ∃ final, list.foldlM step state = .ok final := by
  induction list generalizing state with
  | nil => exact ⟨state, rfl⟩
  | cons first rest ih =>
    obtain ⟨next, isNext⟩ := each first (List.mem_cons_self ..) state
    obtain ⟨final, isFinal⟩ :=
      ih (fun element inside => each element (List.mem_cons_of_mem _ inside)) next
    refine ⟨final, ?_⟩
    rw [List.foldlM_cons, isNext]
    exact isFinal

/-! ### Faults -/

/-- The fault of a computation that fails. -/
def fault? : Except ε α → Option ε
  | .ok _ => none
  | .error fault => some fault

theorem fault?_eq_some_iff {result : Except ε α} {fault : ε} :
    fault? result = some fault ↔ result = .error fault := by
  cases result <;> simp [fault?]

/-- Two steps fail if the first one does, or else the second one. -/
theorem bind_eq_error_iff {first : Except ε α} {second : α → Except ε β} {fault : ε} :
    (first >>= second) = .error fault
      ↔ first = .error fault ∨ ∃ found, first = .ok found ∧ second found = .error fault := by
  cases first with
  | error earlier =>
    constructor
    · intro failed
      cases failed
      exact Or.inl rfl
    · rintro (failed | ⟨_, succeeded, -⟩)
      · cases failed
        rfl
      · cases succeeded
  | ok found =>
    constructor
    · intro rest
      exact Or.inr ⟨found, rfl, rest⟩
    · rintro (failed | ⟨_, ⟨rfl⟩, rest⟩)
      · cases failed
      · exact rest

theorem map_eq_error_iff {first : Except ε α} {make : α → β} {fault : ε} :
    first.map make = .error fault ↔ first = .error fault := by
  cases first <;> simp [Except.map]

theorem mapError_eq_ok_iff {first : Except ε α} {change : ε → δ} {value : α} :
    first.mapError change = .ok value ↔ first = .ok value := by
  cases first <;> simp [Except.mapError]

theorem mapError_eq_error_iff {first : Except ε α} {change : ε → δ} {fault : δ} :
    first.mapError change = .error fault ↔ ∃ cause, first = .error cause ∧ change cause = fault := by
  cases first <;> simp [Except.mapError]

/-- Of two steps the first one that fails counts, if the fault of the second is always the same. -/
theorem fault?_bind {first : Except ε α} {second : α → Except ε β} {later : Option ε}
    (same : ∀ value, first = .ok value → fault? (second value) = later) :
    fault? (first >>= second) = (fault? first).or later := by
  cases first with
  | error fault => rfl
  | ok value => exact same value rfl

theorem fault?_bind_return {first : Except ε α} {make : α → β} :
    fault? (first >>= fun value => pure (make value)) = fault? first := by
  cases first <;> rfl

/-- Of the steps at the elements of a list, the first one that fails counts. -/
theorem fault?_mapM {step : α → Except ε β} {list : List α} :
    fault? (list.mapM step) = list.findSome? fun element => fault? (step element) := by
  induction list with
  | nil => rfl
  | cons first rest ih =>
    have others (value : β) :
        fault? (rest.mapM step >>= fun values => pure (value :: values))
          = rest.findSome? fun element => fault? (step element) :=
      fault?_bind_return.trans ih
    rw [List.mapM_cons, fault?_bind fun value _ => others value, List.findSome?_cons]
    cases fault? (step first) <;> rfl

/-! ### Related lists -/

/-- A list is related to another one if each of its elements is related to something. -/
theorem exists_forall₂ {related : α → β → Prop} {list : List α}
    (each : ∀ element ∈ list, ∃ value, related element value) :
    ∃ values, List.Forall₂ related list values := by
  induction list with
  | nil => exact ⟨[], .nil⟩
  | cons first rest ih =>
    obtain ⟨value, isRelated⟩ := each first (List.mem_cons_self ..)
    obtain ⟨values, areRelated⟩ := ih fun element inside => each element (List.mem_cons_of_mem _ inside)
    exact ⟨value :: values, .cons isRelated areRelated⟩

/-- What stands in the second of two related lists is related to something in the first. -/
theorem exists_of_mem_right {related : α → β → Prop} {first : List α} {second : List β}
    (pairs : List.Forall₂ related first second) {value : β} (member : value ∈ second) :
    ∃ element ∈ first, related element value := by
  induction pairs with
  | nil => cases member
  | cons head _ ih =>
    rcases List.mem_cons.mp member with rfl | inRest
    · exact ⟨_, List.mem_cons_self .., head⟩
    · obtain ⟨element, inside, holds⟩ := ih inRest
      exact ⟨element, List.mem_cons_of_mem _ inside, holds⟩

/-- Related lists have related elements at each position. -/
theorem rel_getElem? {related : α → β → Prop} {first : List α} {second : List β}
    (pairs : List.Forall₂ related first second) (index : Nat) :
    Option.Rel related first[index]? second[index]? := by
  induction pairs generalizing index with
  | nil => exact .none
  | cons head _ ih =>
    cases index with
    | zero => exact .some head
    | succ earlier => exact ih earlier

theorem map_eq_map {related : α → β → Prop} {left : α → γ} {right : β → γ} {first : List α}
    {second : List β} (pairs : List.Forall₂ related first second)
    (same : ∀ element ∈ first, ∀ value, related element value → right value = left element) :
    second.map right = first.map left := by
  induction pairs with
  | nil => rfl
  | cons head _ ih =>
    rw [List.map_cons, List.map_cons, same _ (List.mem_cons_self ..) _ head,
      ih fun element inside => same element (List.mem_cons_of_mem _ inside)]

/-- Lists that are related through a third one are related pair by pair. -/
theorem forall₂_trans {first : α → β → Prop} {second : β → γ → Prop} {left : List α}
    {middle : List β} {right : List γ} (before : List.Forall₂ first left middle)
    (after : List.Forall₂ second middle right) :
    List.Forall₂ (fun element value => ∃ between, first element between ∧ second between value) left
      right := by
  induction before generalizing right with
  | nil =>
    cases after
    exact .nil
  | cons head _ ih =>
    obtain ⟨value, others, isValue, rest, rfl⟩ := List.forall₂_cons_left_iff.mp after
    exact .cons ⟨_, head, isValue⟩ (ih rest)

/-! ### Steps that carry over -/

/-- What one step gives for an element, the other gives for the changed element, changed as well. -/
def Carries (step : α → Except ε β) (other : γ → Except ε δ) (change : α → γ) (make : β → δ) : Prop :=
  ∀ element value, step element = .ok value → other (change element) = .ok (make value)

/-- What is made of the value of a step carries over with it. -/
theorem Carries.returned {σ τ : Type} {step : α → Except ε β} {other : γ → Except ε δ} {change : α → γ}
    {make : β → δ} (carries : Carries step other change make) {wrap : β → σ} {otherWrap : δ → τ}
    {rewrap : σ → τ} {element : α} {value : σ}
    (found : (step element >>= fun found => pure (wrap found)) = .ok value)
    (same : ∀ value, otherWrap (make value) = rewrap (wrap value)) :
    (other (change element) >>= fun found => pure (otherWrap found)) = .ok (rewrap value) := by
  obtain ⟨inner, isInner, rfl⟩ := bind_return_eq_ok_iff.mp found
  exact bind_return_eq_ok_iff.mpr ⟨make inner, carries element inner isInner, same inner⟩

theorem Carries.mapM {step : α → Except ε β} {other : γ → Except ε δ} {change : α → γ} {make : β → δ}
    (carries : Carries step other change make) :
    Carries (List.mapM step) (List.mapM other) (List.map change) (List.map make) := by
  intro list values found
  rw [mapM_eq_ok_iff, List.forall₂_map_left_iff, List.forall₂_map_right_iff]
  exact (mapM_eq_ok_iff.mp found).imp carries

end WitGraph.Success
