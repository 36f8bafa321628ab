/-
**Layouts within the range of words.**

A layout in words is meant to be the one in natural numbers, but sums of sizes can be too large for words.
`Graph.layoutSums` lists the sums that are formed while a layout is filled in with natural numbers. In words
the same table is filled in if all of these sums are words, and otherwise filling in stops with an overflow
(`foldlM_inWords` for a run, `layout_inRange` for the whole). All sums are words if the sizes of records and
variants leave room for one more alignment.

Sizes can grow exponentially with the number of types, so a short document is enough to leave the range
(`exists_sum_beyond_word`).
-/

import WitGraph.Proofs.Layout.Payloads

namespace WitGraph

/-! ### Bounds of sums -/

namespace CanonicalAbi

variable {fields payloads : List Extent} {sum : Nat}

/-- Rounding up to a multiple stays below the sum of the value and the alignment. -/
theorem roundUp_lt_add (value : Nat) {align : Nat} (positive : 0 < align) :
    roundUp value align < value + align := by
  have below := Nat.div_mul_le_self (value + align - 1) align
  unfold roundUp
  omega

/-- The sums for a record do not go beyond its size and one more alignment, and one of them goes beyond
its size. -/
theorem recordSums_bounds (aligned : ∀ extent ∈ fields, extent.IsAligned) :
    (∀ sum ∈ recordSums fields, sum ≤ (record fields).size + (record fields).align)
      ∧ ∃ sum ∈ recordSums fields, (record fields).size < sum := by
  have positive : 0 < align fields := Nat.lt_of_lt_of_le Nat.one_pos (one_le_align fields)
  constructor
  · intro sum member
    have whole : endFrom 0 fields + align fields ≤ (record fields).size + align fields :=
      Nat.add_le_add_right (le_roundUp _ positive) _
    rcases List.mem_append.mp member with isField | isLast
    · exact Nat.le_trans (le_of_mem_fieldSums 0 aligned (fun _ => le_align) isField) whole
    · exact List.mem_singleton.mp isLast ▸ whole
  · exact ⟨_, last_mem_recordSums fields, roundUp_lt_add _ positive⟩

/-- The same holds for a variant. -/
theorem variantSums_bounds (cases : Nat) (payloads : List Extent) :
    (∀ sum ∈ variantSums cases payloads,
        sum ≤ (variant cases payloads).size + (variant cases payloads).align)
      ∧ ∃ sum ∈ variantSums cases payloads, (variant cases payloads).size < sum := by
  have positive : 0 < max (tagBytes cases) (align payloads) :=
    Nat.lt_of_lt_of_le (tagBytes_pos cases) (Nat.le_max_left _ _)
  constructor
  · intro sum member
    have whole : roundUp (tagBytes cases) (align payloads) + size payloads ≤ (variant cases payloads).size :=
      le_roundUp _ positive
    have tag : tagBytes cases ≤ roundUp (tagBytes cases) (align payloads) :=
      le_roundUp _ (Nat.lt_of_lt_of_le Nat.one_pos (one_le_align payloads))
    have isAlign : (variant cases payloads).align = max (tagBytes cases) (align payloads) := rfl
    simp only [variantSums, List.mem_cons, List.not_mem_nil, or_false] at member
    omega
  · exact ⟨_, List.mem_of_getLast? rfl, roundUp_lt_add _ positive⟩

end CanonicalAbi

/-- The kind is laid out as a record or variant. -/
def Kind.IsComposite (kind : TypeKind) : Prop :=
  match kind.despecialize with
  | .record _ | .variant _ => True
  | _ => False

namespace CanonicalAbi

variable {extentOf : TypeRef → Extent} {kind : TypeKind} {sum : Nat}

/-- The sums for a record or variant do not go beyond its size and one more alignment, and one of them
goes beyond its size. -/
theorem sums_bounds (aligned : ∀ type ∈ kind.parts, (extentOf type).IsAligned)
    (composite : kind.IsComposite) :
    (∀ sum ∈ sums extentOf kind, sum ≤ (extent extentOf kind).size + (extent extentOf kind).align)
      ∧ ∃ sum ∈ sums extentOf kind, (extent extentOf kind).size < sum := by
  have parts : ∀ extent ∈ kind.parts.map extentOf, extent.IsAligned := by
    intro extent member
    obtain ⟨type, isPart, rfl⟩ := List.mem_map.mp member
    exact aligned type isPart
  cases kind with
  | record | tuple => exact recordSums_bounds parts
  | variant | enum | option | result => exact variantSums_bounds _ _
  | _ => exact composite.elim

/-- A kind that is no record or variant only forms a sum for its flags. -/
theorem exists_flags_of_mem_sums (simple : ¬ kind.IsComposite) (member : sum ∈ sums extentOf kind) :
    ∃ labels, kind = .flags labels ∧ sum = labels.length + 32 := by
  cases kind with
  | flags labels =>
    have formed : sum ∈ flagsSums labels.length := member
    unfold flagsSums at formed
    split at formed
    · cases formed
    · exact ⟨labels, rfl, List.mem_singleton.mp formed⟩
  | record | tuple | variant | enum | option | result => exact absurd trivial simple
  | _ => cases member

end CanonicalAbi

/-! ### Runs in words -/

namespace LayoutTable

variable {graph : Graph} {table next final : LayoutTable} {id : TypeId} {ids : List TypeId} {sum : Nat}

/-- The table, to be computed with in words from now on. -/
def inWords (table : LayoutTable) : LayoutTable := { table with arithmetic := .word }

theorem extent_inWords (table : LayoutTable) : table.inWords.extent = table.extent := by
  funext type
  cases type <;> rfl

/-- The sums that are formed to fill in one type. -/
def stepSums (graph : Graph) (table : LayoutTable) (id : TypeId) : List Nat :=
  match graph.kind? id with
  | none => []
  | some kind => CanonicalAbi.sums table.extent kind

/-- The sums that are formed to fill in types one after another. -/
def runSums (graph : Graph) (table : LayoutTable) : List TypeId → List Nat
  | [] => []
  | id :: rest => stepSums graph table id ++ match enter graph table id with
    | .ok next => runSums graph next rest
    | .error _ => []

/-- **A step in words does what it does with natural numbers**, if all its sums are words. -/
theorem enter_inWords (aligned : Aligned graph .exact table) (isNext : enter graph table id = .ok next) :
    enter graph table.inWords id
      = guarded Arithmetic.isWord (stepSums graph table id) next.inWords := by
  rcases enter_cases isNext with ⟨absent, rfl⟩ | ⟨kind, extent, found, isExtent, rfl⟩
  · simp only [enter, stepSums, absent]
    rfl
  · have known : kind ≠ .unknown := by
      rintro rfl
      cases isExtent
    have checks : table.arithmetic.Checks fun _ => true :=
      aligned.arithmetic ▸ Arithmetic.checks_exact
    have inWords : table.inWords.arithmetic.Checks Arithmetic.isWord := Arithmetic.checks_word
    have calculated := calculate_eq inWords
      (fun type _ => extent_inWords table ▸ isAligned_extent aligned.aligned type) known
    rw [extent_inWords, eq_of_calculate checks aligned.aligned isExtent] at calculated
    simp only [enter, stepSums, found, calculated]
    exact guarded_map _

/-- **A run in words does what it does with natural numbers**, if all its sums are words. -/
theorem foldlM_inWords (aligned : Aligned graph .exact table)
    (run : ids.foldlM (enter graph) table = .ok final) :
    ids.foldlM (enter graph) table.inWords
      = guarded Arithmetic.isWord (runSums graph table ids) final.inWords := by
  induction ids generalizing table with
  | nil =>
    cases run
    rfl
  | cons first rest ih =>
    rw [List.foldlM_cons] at run
    obtain ⟨next, isNext, later⟩ := Success.bind_eq_ok_iff.mp run
    rw [List.foldlM_cons, enter_inWords aligned isNext, runSums, isNext]
    exact guarded_bind (ih (aligned.enter Arithmetic.checks_exact isNext) later)

/-- A sum of a run is formed at the turn of some type. -/
theorem exists_turn_of_mem_runSums (member : sum ∈ runSums graph table ids) :
    ∃ before id after earlier, ids = before ++ id :: after
      ∧ before.foldlM (enter graph) table = .ok earlier ∧ sum ∈ stepSums graph earlier id := by
  induction ids generalizing table with
  | nil => cases member
  | cons first rest ih =>
    rcases List.mem_append.mp member with here | later
    · exact ⟨[], first, rest, table, rfl, rfl, here⟩
    · split at later
      · rename_i next isNext
        obtain ⟨before, id, after, earlier, rfl, run, formed⟩ := ih later
        refine ⟨first :: before, id, after, earlier, rfl, ?_, formed⟩
        rw [List.foldlM_cons, isNext]
        exact run
      · cases later

/-- At the turn of a type, its sums are formed. -/
theorem mem_runSums_of_turn {before after : List TypeId} {earlier : LayoutTable}
    (run : before.foldlM (enter graph) table = .ok earlier) (formed : sum ∈ stepSums graph earlier id) :
    sum ∈ runSums graph table (before ++ id :: after) := by
  induction before generalizing table with
  | nil =>
    cases run
    exact List.mem_append_left _ formed
  | cons first rest ih =>
    rw [List.foldlM_cons] at run
    obtain ⟨next, isNext, later⟩ := Success.bind_eq_ok_iff.mp run
    rw [List.cons_append, runSums, isNext]
    exact List.mem_append_right _ (ih later)

end LayoutTable

/-! ### Layouts in words -/

namespace Graph

variable {graph : Graph} {exact : LayoutTable}

/-- The sums that are formed when the layout of the graph is filled in with natural numbers. -/
def layoutSums (graph : Graph) : List Nat :=
  LayoutTable.runSums graph (.blank .exact graph) graph.typeOrder

theorem layout_eq_guarded (isExact : LayoutTable.ofGraph .exact graph = .ok exact) :
    graph.layout = guarded Arithmetic.isWord graph.layoutSums exact.inWords :=
  LayoutTable.foldlM_inWords (LayoutTable.aligned_blank graph .exact) isExact

/-- The size of a record or variant is below one of the sums. -/
theorem exists_larger_sum (isExact : LayoutTable.ofGraph .exact graph = .ok exact) {id : TypeId}
    {kind : TypeKind} (found : graph.kind? id = some kind) (composite : kind.IsComposite) :
    ∃ sum ∈ graph.layoutSums, (exact.extentOfId id).size < sum := by
  obtain ⟨before, after, earlier, turn⟩ := LayoutTable.exists_turn isExact (holds_of_kind? found)
  have aligned := (LayoutTable.aligned_blank graph .exact).foldlM Arithmetic.checks_exact turn.run
  have extent := LayoutTable.eq_of_calculate (aligned.arithmetic ▸ Arithmetic.checks_exact)
    aligned.aligned (turn.computed kind found)
  obtain ⟨-, sum, formed, above⟩ := CanonicalAbi.sums_bounds
    (fun type _ => LayoutTable.isAligned_extent aligned.aligned type) composite
  refine ⟨sum, ?_, extent ▸ above⟩
  rw [layoutSums, turn.split]
  refine LayoutTable.mem_runSums_of_turn turn.run ?_
  rw [LayoutTable.stepSums, found]
  exact formed

/-- All sums are words if the sizes of records and variants leave room for one more alignment. -/
theorem lt_of_mem_layoutSums (isExact : LayoutTable.ofGraph .exact graph = .ok exact)
    (room : ∀ id kind, graph.kind? id = some kind → kind.IsComposite →
      (exact.extentOfId id).size + (exact.extentOfId id).align < UInt64.size)
    (few : ∀ id labels, graph.kind? id = some (.flags labels) → labels.length + 32 < UInt64.size) :
    ∀ sum ∈ graph.layoutSums, sum < UInt64.size := by
  intro sum member
  obtain ⟨before, id, after, earlier, split, run, formed⟩ :=
    LayoutTable.exists_turn_of_mem_runSums member
  cases found : graph.kind? id with
  | none =>
    rw [LayoutTable.stepSums, found] at formed
    cases formed
  | some kind =>
    rw [LayoutTable.stepSums, found] at formed
    by_cases composite : kind.IsComposite
    · have turn := LayoutTable.isTurn_of_split isExact split run
      have aligned := (LayoutTable.aligned_blank graph .exact).foldlM Arithmetic.checks_exact run
      have extent := LayoutTable.eq_of_calculate (aligned.arithmetic ▸ Arithmetic.checks_exact)
        aligned.aligned (turn.computed kind found)
      have below := (CanonicalAbi.sums_bounds
        (fun type _ => LayoutTable.isAligned_extent aligned.aligned type) composite).1 sum formed
      rw [extent] at below
      exact Nat.lt_of_le_of_lt below (room id kind found composite)
    · obtain ⟨labels, rfl, rfl⟩ := CanonicalAbi.exists_flags_of_mem_sums composite formed
      exact few id labels found

/-- **A layout in words is the exact one if all sums are words, and otherwise it overflows.** One of the
sums goes beyond the size of each record and variant; and all of them are words if these sizes leave room
for one more alignment. -/
theorem layout_inRange (isRead : graph.IsRead) :
    ∃ exact, LayoutTable.ofGraph .exact graph = .ok exact
      ∧ ((∀ sum ∈ graph.layoutSums, sum < UInt64.size) → graph.layout = .ok exact.inWords)
      ∧ ((∃ sum ∈ graph.layoutSums, UInt64.size ≤ sum) → graph.layout = .error .overflow)
      ∧ (∀ id kind, graph.kind? id = some kind → kind.IsComposite →
          ∃ sum ∈ graph.layoutSums, (exact.extentOfId id).size < sum)
      ∧ ((∀ id kind, graph.kind? id = some kind → kind.IsComposite →
            (exact.extentOfId id).size + (exact.extentOfId id).align < UInt64.size) →
          (∀ id labels, graph.kind? id = some (.flags labels) → labels.length + 32 < UInt64.size) →
          ∀ sum ∈ graph.layoutSums, sum < UInt64.size) := by
  have known := (wellLinked_of_isRead isRead).known
  obtain ⟨exact, isExact, -⟩ := LayoutTable.exists_ofGraph known
  have inWords := layout_eq_guarded isExact
  refine ⟨exact, isExact, fun words => ?_, fun ⟨sum, member, beyond⟩ => ?_,
    fun id kind found composite => exists_larger_sum isExact found composite,
    lt_of_mem_layoutSums isExact⟩
  · exact inWords.trans (guarded_of_all fun sum member => Arithmetic.isWord_iff.mpr (words sum member))
  · exact inWords.trans (Arithmetic.guarded_of_size_le member beyond)

/-- A record with a tuple and a list is far from the limit, so its layout in words is exact. -/
theorem layout_inRange_reversed :
    Reversed.graph.IsRead ∧ LayoutTable.ofGraph .exact Reversed.graph = .ok Reversed.table
      ∧ (∀ sum ∈ Reversed.graph.layoutSums, sum < UInt64.size)
      ∧ Reversed.graph.layout = .ok Reversed.table.inWords := by
  have isRead : Reversed.graph.IsRead := ⟨_, Reversed.accepted⟩
  obtain ⟨exact, isExact, fits, -, -, sums⟩ := layout_inRange isRead
  obtain rfl : exact = Reversed.table := Except.ok.inj (isExact.symm.trans rfl)
  have room : ∀ id kind, Reversed.graph.kind? id = some kind → kind.IsComposite →
      (Reversed.table.extentOfId id).size + (Reversed.table.extentOfId id).align < UInt64.size := by
    rintro ⟨_ | _ | _ | _⟩ kind found -
    · decide
    · decide
    · decide
    · cases found
  have few : ∀ id labels, Reversed.graph.kind? id = some (.flags labels) →
      labels.length + 32 < UInt64.size := by
    rintro ⟨_ | _ | _ | _⟩ labels found <;> cases found
  have within := sums room few
  exact ⟨isRead, isExact, within, fits within⟩

/-- **Sums can be beyond a word.** Each pair is twice as large as the one before, so that the sixty-first
takes 2 ^ 64 bytes; in words, there is no layout. -/
theorem exists_sum_beyond_word :
    (Pairs.graph 61 []).IsRead
      ∧ (∃ sum ∈ (Pairs.graph 61 []).layoutSums, UInt64.size ≤ sum)
      ∧ (∃ exact, LayoutTable.ofGraph .exact (Pairs.graph 61 []) = .ok exact
          ∧ exact.extentOfId ⟨60⟩ = ⟨2 ^ 64, 8⟩)
      ∧ (Pairs.graph 61 []).layout = .error .overflow := by
  have isRead : (Pairs.graph 61 []).IsRead := Pairs.isRead (fun _ isTuple => by cases isTuple) (by decide)
  obtain ⟨exact, isExact, inNumbers, solved⟩ :=
    LayoutTable.exists_ofGraph (wellLinked_of_isRead isRead).known
  have extent : exact.extentOfId ⟨60⟩ = ⟨2 ^ 64, 8⟩ :=
    (Pairs.hasExtent (by decide)).extent_eq (inNumbers ▸ Arithmetic.checks_exact) solved
      (Pairs.isGrounded (by decide))
  obtain ⟨sum, member, above⟩ := exists_larger_sum isExact
    (Pairs.kind?_eq (show 60 < 61 by decide)) trivial
  rw [extent] at above
  have beyond : UInt64.size ≤ sum := Nat.le_of_lt above
  exact ⟨isRead, ⟨sum, member, beyond⟩, ⟨exact, isExact, extent⟩,
    (layout_eq_guarded isExact).trans (Arithmetic.guarded_of_size_le member beyond)⟩

end Graph

end WitGraph
