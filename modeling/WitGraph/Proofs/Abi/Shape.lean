/-
**Which type the shape of a variant is.**

The shape is found by sorting the types, the largest first. `PicksShape` says what it means to pick one
of some candidates: a largest candidate, of these rather one with a pointer, of these the first. There
is at most one such type (`PicksShape.unique`).

A `bool` is meant to be picked only if there is nothing else. The sort compares the sizes first, so a
`bool` is a candidate as soon as all of the largest types are `bool`, and it is larger than a type
without a size. `variantShape_keepsPromise_iff` says when the two come to the same.
-/

import WitGraph.Abi.Shape
import WitGraph.Proofs.Abi.Grounded
import WitGraph.Proofs.Document.WellLinked
import WitGraph.Proofs.Layout.Filling

namespace WitGraph

/-! ### The head of a sorted list -/

/-- **A stable sort moves the first of the least elements to the front.** -/
theorem exists_split_of_head?_mergeSort {α : Type} {le : α → α → Bool}
    (trans : ∀ first second third, le first second → le second third → le first third)
    (total : ∀ first second, le first second || le second first) {list : List α} {least : α}
    (isHead : (list.mergeSort le).head? = some least) :
    ∃ before after, list = before ++ least :: after ∧ (∀ other ∈ list, le least other)
      ∧ ∀ other ∈ before, ¬ le other least := by
  induction list with
  | nil => simp at isHead
  | cons first rest ih =>
    obtain ⟨ahead, behind, sorted, sortedRest, apart⟩ := List.mergeSort_cons trans total first rest
    rw [sorted] at isHead
    cases ahead with
    | nil =>
      obtain rfl : first = least := Option.some.inj isHead
      have pairwise := List.pairwise_mergeSort trans total (first :: rest)
      rw [sorted] at pairwise
      refine ⟨[], rest, rfl, fun other member => ?_, fun _ none => by cases none⟩
      have inSorted : other ∈ [] ++ first :: behind := sorted ▸ List.mem_mergeSort.mpr member
      rcases List.mem_cons.mp inSorted with rfl | isBehind
      · simpa using total other other
      · exact List.rel_of_pairwise_cons pairwise isBehind
    | cons head ahead =>
      obtain rfl : head = least := Option.some.inj isHead
      obtain ⟨before, after, split, isLeast, isFirst⟩ := ih (by rw [sortedRest]; rfl)
      have notBelow : ¬ le first head := by simpa using apart head (List.mem_cons_self ..)
      refine ⟨first :: before, after, by rw [split]; rfl, ?_, ?_⟩
      · refine List.forall_mem_cons.mpr ⟨?_, isLeast⟩
        simpa [notBelow] using total first head
      · exact List.forall_mem_cons.mpr ⟨notBelow, isFirst⟩

namespace Graph

section Choice

variable {graph : Graph} {table : LayoutTable} {types : List TypeRef} {shape second : TypeRef}
  {candidate : TypeRef → Prop}

/-! ### Picking one of the candidates -/

/-- The type is picked from the list among the candidates: it is one of the largest, it has a pointer if
one of these has, and none before it is as good. -/
structure PicksShape (graph : Graph) (table : LayoutTable) (candidate : TypeRef → Prop)
    (types : List TypeRef) (shape : TypeRef) : Prop where
  isCandidate : candidate shape
  largest : ∀ other ∈ types, candidate other → (table.extent other).size ≤ (table.extent shape).size
  pointer : ∀ other ∈ types, candidate other → (table.extent other).size = (table.extent shape).size →
    graph.hasPointer other → graph.hasPointer shape
  first : ∃ before after, types = before ++ shape :: after ∧ ∀ other ∈ before, candidate other →
    (table.extent other).size = (table.extent shape).size →
      graph.hasPointer other ≠ graph.hasPointer shape

namespace PicksShape

theorem mem (picks : graph.PicksShape table candidate types shape) : shape ∈ types := by
  obtain ⟨before, after, split, -⟩ := picks.first
  exact split ▸ List.mem_append_right _ (List.mem_cons_self ..)

/-- Only the candidates in the list count. -/
theorem congr {eligible : TypeRef → Prop} (same : ∀ type ∈ types, candidate type ↔ eligible type)
    (picks : graph.PicksShape table candidate types shape) :
    graph.PicksShape table eligible types shape where
  isCandidate := (same shape picks.mem).mp picks.isCandidate
  largest other member isEligible := picks.largest other member ((same other member).mpr isEligible)
  pointer other member isEligible := picks.pointer other member ((same other member).mpr isEligible)
  first := by
    obtain ⟨before, after, split, isFirst⟩ := picks.first
    refine ⟨before, after, split, fun other member isEligible => isFirst other member ?_⟩
    exact (same other (split ▸ List.mem_append_left _ member)).mpr isEligible

/-- Two types that are picked tie in all that is compared. -/
theorem ties (picks : graph.PicksShape table candidate types shape)
    (picksSecond : graph.PicksShape table candidate types second) :
    (table.extent shape).size = (table.extent second).size
      ∧ graph.hasPointer shape = graph.hasPointer second := by
  have size : (table.extent shape).size = (table.extent second).size :=
    Nat.le_antisymm (picksSecond.largest shape picks.mem picks.isCandidate)
      (picks.largest second picksSecond.mem picksSecond.isCandidate)
  refine ⟨size, Bool.eq_iff_iff.mpr ⟨?_, ?_⟩⟩
  · exact picksSecond.pointer shape picks.mem picks.isCandidate size
  · exact picks.pointer second picksSecond.mem picksSecond.isCandidate size.symm

/-- **At most one type is picked.** -/
theorem unique (picks : graph.PicksShape table candidate types shape)
    (picksSecond : graph.PicksShape table candidate types second) : shape = second := by
  obtain ⟨before, after, split, isFirst⟩ := picks.first
  obtain ⟨beforeSecond, afterSecond, splitSecond, isFirstSecond⟩ := picksSecond.first
  obtain ⟨size, pointer⟩ := picks.ties picksSecond
  -- whichever stands first in the list is a candidate as good as the other one
  rcases List.append_eq_append_iff.mp (split.symm.trans splitSecond) with
    ⟨between, rfl, rest⟩ | ⟨between, rfl, rest⟩
  · cases between with
    | nil => exact (List.cons.inj rest).1
    | cons head tail =>
      obtain ⟨rfl, -⟩ := List.cons.inj rest
      have isBefore : shape ∈ before ++ shape :: tail := List.mem_append_right _ (List.mem_cons_self ..)
      exact absurd pointer (isFirstSecond shape isBefore picks.isCandidate size)
  · cases between with
    | nil => exact (List.cons.inj rest).1.symm
    | cons head tail =>
      obtain ⟨rfl, -⟩ := List.cons.inj rest
      have isBefore : second ∈ beforeSecond ++ second :: tail :=
        List.mem_append_right _ (List.mem_cons_self ..)
      exact absurd pointer.symm (isFirst second isBefore picksSecond.isCandidate size.symm)

end PicksShape

theorem picksShape_congr {eligible : TypeRef → Prop}
    (same : ∀ type ∈ types, candidate type ↔ eligible type) :
    graph.PicksShape table candidate types shape ↔ graph.PicksShape table eligible types shape :=
  ⟨.congr same, .congr fun type member => (same type member).symm⟩

/-- A `bool` may be picked only if there is nothing else in the list. -/
def IsAvailable (isBool : TypeRef → Prop) (types : List TypeRef) (type : TypeRef) : Prop :=
  isBool type → ∀ other ∈ types, isBool other

theorem isAvailable_congr {isBool stands : TypeRef → Prop}
    (same : ∀ type ∈ types, isBool type ↔ stands type) {among : List TypeRef} (within : among ⊆ types)
    {type : TypeRef} (member : type ∈ types) :
    IsAvailable isBool among type ↔ IsAvailable stands among type := by
  unfold IsAvailable
  rw [same type member]
  exact imp_congr_right fun _ => forall₂_congr fun other isOther => same other (within isOther)

/-! ### What the sort picks -/

/-- The types in the list that no type in it is larger than. -/
def largestOf (table : LayoutTable) (types : List TypeRef) : List TypeRef :=
  types.filter fun type => ∀ other ∈ types, (table.extent other).size ≤ (table.extent type).size

theorem mem_largestOf_iff {type : TypeRef} : type ∈ largestOf table types
    ↔ type ∈ types ∧ ∀ other ∈ types, (table.extent other).size ≤ (table.extent type).size := by
  simp [largestOf]

/-- One type comes before another one or ties with it. -/
theorem isLE_compareShape_iff {first second : TypeRef} :
    (graph.compareShape table first second).isLE
      ↔ (table.extent second).size < (table.extent first).size
        ∨ (table.extent second).size = (table.extent first).size
          ∧ (graph.isBool first = false ∧ graph.isBool second = true
            ∨ graph.isBool first = graph.isBool second
              ∧ (graph.hasPointer second → graph.hasPointer first)) := by
  unfold compareShape
  rcases Nat.lt_trichotomy (table.extent second).size (table.extent first).size with
    less | same | greater
  · simp [Nat.compare_eq_lt.mpr less, less]
  · simp only [same, Nat.compare_eq_eq.mpr rfl, Nat.lt_irrefl, Ordering.then]
    cases graph.isBool first <;> cases graph.isBool second <;> cases graph.hasPointer first <;>
      cases graph.hasPointer second <;> decide
  · simp [Nat.compare_eq_gt.mpr greater]
    omega

theorem isLE_compareShape_trans (first second third : TypeRef)
    (before : (graph.compareShape table first second).isLE)
    (after : (graph.compareShape table second third).isLE) :
    (graph.compareShape table first third).isLE := by
  rw [isLE_compareShape_iff] at before after ⊢
  grind

theorem isLE_compareShape_total (first second : TypeRef) :
    (graph.compareShape table first second).isLE || (graph.compareShape table second first).isLE := by
  rw [Bool.or_eq_true, isLE_compareShape_iff, isLE_compareShape_iff]
  grind

theorem variantShape_eq_none_iff : graph.variantShape table types = none ↔ types = [] := by
  rw [variantShape, List.head?_eq_none_iff, ← List.length_eq_zero_iff, List.length_mergeSort,
    List.length_eq_zero_iff]

/-- Of two types, the first one is the shape unless it comes behind the second one. -/
theorem variantShape_pair (first second : TypeRef) : graph.variantShape table [first, second]
    = some (if (graph.compareShape table first second).isLE then first else second) := by
  by_cases comes : (graph.compareShape table first second).isLE
  · simp [variantShape, List.mergeSort, comes]
  · simp [variantShape, List.mergeSort, comes]

theorem variantShape_mem_largestOf (isShape : graph.variantShape table types = some shape) :
    shape ∈ largestOf table types := by
  obtain ⟨before, after, split, isLeast, -⟩ := exists_split_of_head?_mergeSort
    isLE_compareShape_trans isLE_compareShape_total isShape
  rw [mem_largestOf_iff]
  refine ⟨split ▸ List.mem_append_right _ (List.mem_cons_self ..), fun other isOther => ?_⟩
  have comes := isLE_compareShape_iff.mp (isLeast other isOther)
  omega

theorem picksShape_variantShape (isShape : graph.variantShape table types = some shape) :
    graph.PicksShape table (IsAvailable (fun type => graph.isBool type) (largestOf table types)) types
      shape := by
  have isLargest := variantShape_mem_largestOf isShape
  obtain ⟨member, largest⟩ := mem_largestOf_iff.mp isLargest
  obtain ⟨before, after, split, isLeast, isFirst⟩ := exists_split_of_head?_mergeSort
    isLE_compareShape_trans isLE_compareShape_total isShape
  simp only [isLE_compareShape_iff] at isLeast isFirst
  have ties : ∀ other ∈ types, (table.extent other).size = (table.extent shape).size →
      graph.isBool shape = false ∧ graph.isBool other = true
        ∨ graph.isBool shape = graph.isBool other ∧ (graph.hasPointer other → graph.hasPointer shape) := by
    intro other isOther same
    exact ((isLeast other isOther).resolve_left (by omega)).2
  -- a `bool` of the same size is a candidate only if the shape is a `bool`, too
  have agrees : ∀ other ∈ types, (table.extent other).size = (table.extent shape).size →
      IsAvailable (fun type => graph.isBool type) (largestOf table types) other →
      graph.isBool shape = graph.isBool other ∧ (graph.hasPointer other → graph.hasPointer shape) := by
    intro other isOther same available
    rcases ties other isOther same with ⟨notBool, isBool⟩ | agree
    · exact absurd (available isBool shape isLargest) (by simp [notBool])
    · exact agree
  refine ⟨fun isBool other isOther => ?_, fun other isOther _ => largest other isOther,
    fun other isOther available same => (agrees other isOther same available).2, before, after, split, ?_⟩
  · obtain ⟨inList, above⟩ := mem_largestOf_iff.mp isOther
    have same : (table.extent other).size = (table.extent shape).size :=
      Nat.le_antisymm (largest other inList) (above shape member)
    rcases ties other inList same with ⟨notBool, -⟩ | ⟨agree, -⟩
    · exact absurd isBool (by simp [notBool])
    · exact agree ▸ isBool
  · intro other isBefore available same pointer
    have isOther : other ∈ types := split ▸ List.mem_append_left _ isBefore
    obtain ⟨agree, -⟩ := agrees other isOther same available
    exact isFirst other isBefore (Or.inr ⟨same.symm, Or.inr ⟨agree.symm, fun has => pointer ▸ has⟩⟩)

/-- **The shape is the one type that is picked** if a `bool` counts as soon as there is nothing else
among the largest. -/
theorem variantShape_eq_some_iff : graph.variantShape table types = some shape
    ↔ graph.PicksShape table (IsAvailable (fun type => graph.isBool type) (largestOf table types)) types
      shape := by
  refine ⟨picksShape_variantShape, fun picks => ?_⟩
  cases isFound : graph.variantShape table types with
  | none => exact absurd (variantShape_eq_none_iff.mp isFound) (List.ne_nil_of_mem picks.mem)
  | some found => rw [(picksShape_variantShape isFound).unique picks]

/-! ### Types that stand for `bool` -/

/-- The type is `bool` or a synonym of such a type. -/
inductive StandsForBool (graph : Graph) : TypeRef → Prop
  | bool : StandsForBool graph (.primitive .bool)
  | synonym {id : TypeId} {target : TypeRef} (found : graph.kind? id = some (.synonym target))
    (stands : StandsForBool graph target) : StandsForBool graph (.defined id)

theorem standsForBool_defined_iff {id : TypeId} : graph.StandsForBool (.defined id)
    ↔ ∃ target, graph.kind? id = some (.synonym target) ∧ graph.StandsForBool target := by
  constructor
  · rintro (_ | ⟨found, stands⟩)
    exact ⟨_, found, stands⟩
  · rintro ⟨target, found, stands⟩
    exact .synonym found stands

theorem isBool_of_kind? {id : TypeId} {kind : TypeKind} (found : graph.kind? id = some kind)
    (isRoot : ∀ next, kind ≠ .synonym (.defined next)) :
    graph.isBool (.defined id) ↔ kind = .synonym (.primitive .bool) := by
  have isSelf : graph.typeRoot id = id :=
    typeRootWithin_eq_self (fun next isNext => isRoot next (Option.some.inj (found.symm.trans isNext))) _
  simp [isBool, isSelf, found]

/-- **A grounded type is `bool` if it stands for it.** -/
theorem IsClosed.isBool_iff (closed : graph.IsClosed) {type : TypeRef}
    (held : ∀ id, type = .defined id → graph.Holds id.item) (grounded : graph.IsGroundedType type) :
    graph.isBool type ↔ graph.StandsForBool type := by
  cases type with
  | primitive type =>
    constructor
    · intro isBool
      obtain rfl : type = .bool := of_decide_eq_true isBool
      exact .bool
    · rintro ⟨⟩
      rfl
  | defined id =>
    refine closed.grounded_induction
      (motive := fun id => graph.isBool (.defined id) ↔ graph.StandsForBool (.defined id))
      (fun id kind found grounded ih => ?_) (held id rfl) grounded
    rw [standsForBool_defined_iff, found]
    by_cases isSynonym : ∃ next, kind = .synonym (.defined next)
    · obtain ⟨next, rfl⟩ := isSynonym
      have follows : graph.isBool (.defined id) = graph.isBool (.defined next) := by
        simp only [isBool, closed.typeRoot_synonym grounded found]
      rw [follows, ih next (List.mem_singleton_self _)]
      simp
    · rw [isBool_of_kind? found fun next same => isSynonym ⟨next, same⟩]
      constructor
      · rintro rfl
        exact ⟨_, rfl, .bool⟩
      · rintro ⟨target, same, stands⟩
        cases stands with
        | bool => exact Option.some.inj same
        | synonym _ _ => exact absurd ⟨_, Option.some.inj same⟩ isSynonym

/-- What stands for `bool` is laid out like `bool`. -/
theorem StandsForBool.extent_eq {arithmetic : Arithmetic}
    (filled : LayoutTable.ofGraph arithmetic graph = .ok table) {type : TypeRef}
    (stands : graph.StandsForBool type) (grounded : graph.IsGroundedType type) :
    table.extent type = .ofPrimitive .bool := by
  induction stands with
  | bool => rfl
  | synonym found _ ih =>
    have equation := LayoutTable.solved_of_ofGraph filled found grounded
    have target := ih (grounded.of_mentions found (List.mem_singleton_self _))
    exact (Except.ok.inj equation).symm.trans target

/-! ### What is promised -/

/-- If there are both a `bool` and something else in the list, then something else in it has a size. -/
def HasSizedChoice (graph : Graph) (table : LayoutTable) (types : List TypeRef) : Prop :=
  ∀ bool ∈ types, graph.StandsForBool bool → ∀ other ∈ types, ¬ graph.StandsForBool other →
    ∃ sized ∈ types, ¬ graph.StandsForBool sized ∧ 0 < (table.extent sized).size

/-- Where something else has a size, a `bool` is alone in the list if it is alone among the largest. -/
theorem HasSizedChoice.isAvailable_iff (choice : graph.HasSizedChoice table types)
    (sizes : ∀ type ∈ types, graph.StandsForBool type → (table.extent type).size = 1)
    {largest : TypeRef} (isLargest : largest ∈ largestOf table types) {type : TypeRef}
    (member : type ∈ types) : IsAvailable graph.StandsForBool (largestOf table types) type
      ↔ IsAvailable graph.StandsForBool types type := by
  constructor
  · intro available isBool other isOther
    by_contra notBool
    obtain ⟨sized, isSized, sizedNotBool, positive⟩ := choice type member isBool other isOther notBool
    have largestIsBool := available isBool largest isLargest
    obtain ⟨inList, above⟩ := mem_largestOf_iff.mp isLargest
    have one := sizes largest inList largestIsBool
    have sizedIsLargest : sized ∈ largestOf table types := by
      refine mem_largestOf_iff.mpr ⟨isSized, fun third isThird => ?_⟩
      have below := above third isThird
      omega
    exact sizedNotBool (available isBool sized sizedIsLargest)
  · intro available isBool other isOther
    exact available isBool other (mem_largestOf_iff.mp isOther).1

/-- **When the shape keeps its promise.** The shape is the one type that is picked if a `bool` counts as
soon as there is nothing else among the largest types. It is the one that is promised, where a `bool`
counts only if there is nothing else at all, unless a `bool` competes with types without a size. -/
theorem variantShape_keepsPromise_iff (closed : graph.IsClosed) {arithmetic : Arithmetic}
    (filled : LayoutTable.ofGraph arithmetic graph = .ok table)
    (held : ∀ id, .defined id ∈ types → graph.Holds id.item)
    (grounded : ∀ type ∈ types, graph.IsGroundedType type) :
    (graph.variantShape table types = none ↔ types = [])
      ∧ ∀ shape, (graph.variantShape table types = some shape
          ↔ graph.PicksShape table (IsAvailable graph.StandsForBool (largestOf table types)) types shape)
        ∧ (graph.variantShape table types = some shape →
            (graph.PicksShape table (IsAvailable graph.StandsForBool types) types shape
              ↔ graph.HasSizedChoice table types)) := by
  have isBool : ∀ type ∈ types, graph.isBool type ↔ graph.StandsForBool type := fun type member =>
    closed.isBool_iff (fun id same => held id (same ▸ member)) (grounded type member)
  have sizes : ∀ type ∈ types, graph.StandsForBool type → (table.extent type).size = 1 := by
    intro type member stands
    rw [stands.extent_eq filled (grounded type member)]
    rfl
  have within : largestOf table types ⊆ types := List.filter_subset_self _
  have picked (shape : TypeRef) : graph.variantShape table types = some shape
      ↔ graph.PicksShape table (IsAvailable graph.StandsForBool (largestOf table types)) types shape :=
    variantShape_eq_some_iff.trans (picksShape_congr fun type => isAvailable_congr isBool within)
  refine ⟨variantShape_eq_none_iff, fun shape => ⟨picked shape, fun isShape => ⟨fun promised => ?_,
    fun choice => ?_⟩⟩⟩
  · intro bool isInList standsForBool other isOther notBool
    -- the shape is not a `bool`, and it is as large as one
    obtain ⟨member, above⟩ := mem_largestOf_iff.mp (variantShape_mem_largestOf isShape)
    refine ⟨shape, member, fun stands => notBool (promised.isCandidate stands other isOther), ?_⟩
    have one := sizes bool isInList standsForBool
    have below := above bool isInList
    omega
  · have isLargest := variantShape_mem_largestOf isShape
    exact (picksShape_congr fun type => choice.isAvailable_iff sizes isLargest).mp
      ((picked shape).mp isShape)

end Choice

namespace Sizeless

/-- The lines of a document with a synonym of `bool` and a tuple of nothing. -/
def lines : List String := [
  "\x7b\"types\":[\x7b\"kind\":\x7b\"type\":\"bool\"\x7d\x7d,",
  "\x7b\"kind\":\x7b\"tuple\":\x7b\"types\":[]\x7d\x7d\x7d]\x7d"]

/-- The graph that the document describes. -/
def graph : Graph where
  types := #[{ kind := .synonym (.primitive .bool) }, { kind := .tuple [] }]

theorem accepted : ofText ("\n".intercalate lines) = .ok graph := by
  rw [ofText_intercalate]
  decide +kernel

theorem isGrounded : ∀ id, graph.IsGrounded id
  | ⟨0⟩ | ⟨1⟩ | ⟨_ + 2⟩ => isGrounded_of_directIds fun _ member => by cases member

theorem not_standsForBool_tuple : ¬ graph.StandsForBool (.defined ⟨1⟩) := by
  intro stands
  obtain ⟨target, found, -⟩ := standsForBool_defined_iff.mp stands
  have isTuple : graph.kind? ⟨1⟩ = some (.tuple []) := rfl
  cases isTuple.symm.trans found

theorem not_standsForBool_primitive {type : Primitive} (other : type ≠ .bool) :
    ¬ graph.StandsForBool (.primitive type) := by
  rintro ⟨⟩
  exact other rfl

end Sizeless

/-- A synonym of `bool` stands first, but the `s8` of the same size is the shape, as it is promised. -/
theorem variantShape_keepsPromise_synonym :
    Sizeless.graph.IsClosed ∧ ∃ table, LayoutTable.ofGraph .word Sizeless.graph = .ok table
      ∧ Sizeless.graph.variantShape table [.defined ⟨0⟩, .primitive .s8] = some (.primitive .s8)
      ∧ Sizeless.graph.PicksShape table
          (IsAvailable Sizeless.graph.StandsForBool [.defined ⟨0⟩, .primitive .s8])
          [.defined ⟨0⟩, .primitive .s8] (.primitive .s8) := by
  have isRead : Sizeless.graph.IsRead := ⟨_, Sizeless.accepted⟩
  have closed := (wellLinked_of_isRead isRead).closed
  have compared : (LayoutTable.ofGraph .word Sizeless.graph >>= fun table =>
      pure (Sizeless.graph.compareShape table (.defined ⟨0⟩) (.primitive .s8)).isLE)
      = .ok false := by decide +kernel
  obtain ⟨table, filled, isBehind⟩ := Success.bind_return_eq_ok_iff.mp compared
  have isShape : Sizeless.graph.variantShape table [.defined ⟨0⟩, .primitive .s8]
      = some (.primitive .s8) := by rw [variantShape_pair, isBehind]; rfl
  have held : ∀ id, .defined id ∈ [TypeRef.defined ⟨0⟩, .primitive .s8] →
      Sizeless.graph.Holds id.item := by
    intro id member
    obtain rfl : id = ⟨0⟩ := by simpa using member
    decide
  have grounded : ∀ type ∈ [TypeRef.defined ⟨0⟩, .primitive .s8], Sizeless.graph.IsGroundedType type
    | .primitive _, _ => trivial
    | .defined id, _ => Sizeless.isGrounded id
  obtain ⟨-, each⟩ := variantShape_keepsPromise_iff closed filled held grounded
  refine ⟨closed, table, filled, isShape, ((each _).2 isShape).mpr ?_⟩
  intro _ _ _ _ _ _
  exact ⟨.primitive .s8, by simp, Sizeless.not_standsForBool_primitive (by decide), Nat.one_pos⟩

/-- **A `bool` is preferred to a type without a size**, although this is available. -/
theorem exists_bool_before_sizeless : Sizeless.graph.IsRead ∧ (∀ id, Sizeless.graph.IsGrounded id)
    ∧ ∃ table, Sizeless.graph.layout = .ok table
      ∧ Sizeless.graph.variantShape table [.primitive .bool, .defined ⟨1⟩] = some (.primitive .bool)
      ∧ ¬ IsAvailable Sizeless.graph.StandsForBool [.primitive .bool, .defined ⟨1⟩]
        (.primitive .bool) := by
  have compared : (Sizeless.graph.layout >>= fun table =>
      pure (Sizeless.graph.compareShape table (.primitive .bool) (.defined ⟨1⟩)).isLE) = .ok true := by
    decide +kernel
  obtain ⟨table, filled, isAhead⟩ := Success.bind_return_eq_ok_iff.mp compared
  have isShape : Sizeless.graph.variantShape table [.primitive .bool, .defined ⟨1⟩]
      = some (.primitive .bool) := by rw [variantShape_pair, isAhead]; rfl
  refine ⟨⟨_, Sizeless.accepted⟩, Sizeless.isGrounded, table, filled, isShape, fun available => ?_⟩
  exact Sizeless.not_standsForBool_tuple (available .bool (.defined ⟨1⟩) (by simp))

end Graph

end WitGraph
