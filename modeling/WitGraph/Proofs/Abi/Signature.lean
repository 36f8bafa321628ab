/-
**The core signatures of a function agree.**

A function has one core signature where it is imported and one where it is exported, both made from the
flat forms of its parameters and of its results (`Signature.Agree`): they pass the same parameters, but
for the pointer to where results are to be stored, which only an imported function is passed, and for
the receiver of an exported method, which is a pointer to the representation of its resource. Neither
has more than 17 parameters or more than one result.
-/

import WitGraph.Proofs.Abi.Appending
import WitGraph.Proofs.Document.WellLinked

namespace WitGraph

namespace Signature

/-- The signatures of a function with the flat forms `params` and `results`, where it is imported and
where it is exported. -/
structure Agree (isMethod : Bool) (params results : List CoreType) (imported exported : Signature) :
    Prop where
  indirectParams : (imported.indirectParams = true ↔ 16 < params.length)
    ∧ (exported.indirectParams = true ↔ 16 < params.length)
  returnPointer : (imported.returnPointer = true ↔ 1 < results.length)
    ∧ (exported.returnPointer = true ↔ 1 < results.length)
  /-- The parameters, or one pointer to them, and then the pointer to where results are stored. -/
  importedParams : imported.params = (if 16 < params.length then [.pointer] else params)
    ++ (if 1 < results.length then [.pointer] else [])
  /-- The receiver of a method, if it is an `i32` that is passed directly, is a pointer. -/
  receiver : isMethod = true → params.length ≤ 16 → params.head? = some .i32 →
    exported.params = .pointer :: params.tail
  /-- Without such a receiver, the parameters are those of the imported function. -/
  exportedParams : ¬ (isMethod = true ∧ params.length ≤ 16 ∧ params.head? = some .i32) →
    exported.params = if 16 < params.length then [.pointer] else params
  importedResults : imported.results = if 1 < results.length then [] else results
  exportedResults : exported.results = if 1 < results.length then [.pointer] else results
  few : ∀ signature ∈ [imported, exported],
    signature.params.length ≤ 17 ∧ signature.results.length ≤ 1

variable {params : List CoreType}

theorem withRepresentation_of_head? (isReceiver : params.head? = some .i32) :
    withRepresentation params = .pointer :: params.tail := by
  obtain ⟨rest, rfl⟩ : ∃ rest, params = .i32 :: rest := List.head?_eq_some_iff.mp isReceiver
  rfl

theorem withRepresentation_of_ne (noReceiver : params.head? ≠ some .i32) :
    withRepresentation params = params := by
  unfold withRepresentation
  split
  · exact absurd rfl noReceiver
  · rfl

theorem length_withRepresentation (params : List CoreType) :
    (withRepresentation params).length = params.length := by
  unfold withRepresentation
  split <;> rfl

theorem length_passed (side : AbiSide) (isMethod : Bool) (params : List CoreType) :
    (passed side isMethod params).length ≤ 16 := by
  unfold passed
  split
  · exact Nat.le_of_ble_eq_true rfl
  · rename_i few
    have fits : params.length ≤ 16 := Nat.le_of_not_lt few
    split
    · rwa [length_withRepresentation]
    · exact fits

theorem passed_imported (isMethod : Bool) (params : List CoreType) :
    passed .imported isMethod params = if 16 < params.length then [.pointer] else params := by
  show (if 16 < params.length then [.pointer]
    else if isMethod && false then withRepresentation params else params) = _
  rw [Bool.and_false, if_neg Bool.false_ne_true]

theorem passed_receiver (fits : params.length ≤ 16) (isReceiver : params.head? = some .i32) :
    passed .exported true params = .pointer :: params.tail := by
  show (if 16 < params.length then [.pointer] else withRepresentation params) = _
  rw [if_neg (Nat.not_lt.mpr fits), withRepresentation_of_head? isReceiver]

theorem passed_exported {isMethod : Bool}
    (noReceiver : ¬ (isMethod = true ∧ params.length ≤ 16 ∧ params.head? = some .i32)) :
    passed .exported isMethod params = if 16 < params.length then [.pointer] else params := by
  cases isMethod with
  | false => rfl
  | true =>
    show (if 16 < params.length then [.pointer] else withRepresentation params) = _
    by_cases many : 16 < params.length
    · rw [if_pos many, if_pos many]
    · rw [if_neg many, if_neg many]
      exact withRepresentation_of_ne fun isReceiver =>
        noReceiver ⟨rfl, Nat.le_of_not_lt many, isReceiver⟩

section OfFlat

variable (side : AbiSide) (isMethod : Bool) (params results : List CoreType)

theorem indirectParams_ofFlat :
    (ofFlat side isMethod params results).indirectParams = decide (16 < params.length) := by
  unfold ofFlat
  split
  · cases side <;> rfl
  · rfl

theorem returnPointer_ofFlat :
    (ofFlat side isMethod params results).returnPointer = decide (1 < results.length) := by
  unfold ofFlat
  split
  · rename_i stored
    cases side <;> exact (decide_eq_true stored).symm
  · rename_i direct
    exact (decide_eq_false direct).symm

/-- Behind the parameters, an imported function is passed a pointer to where its results are stored. -/
theorem params_imported :
    (ofFlat .imported isMethod params results).params = passed .imported isMethod params
      ++ if 1 < results.length then [.pointer] else [] := by
  unfold ofFlat
  by_cases stored : 1 < results.length <;> simp [stored, maxResults]

theorem params_exported :
    (ofFlat .exported isMethod params results).params = passed .exported isMethod params := by
  unfold ofFlat
  split <;> rfl

theorem results_ofFlat :
    (ofFlat side isMethod params results).results
      = if 1 < results.length then (if side = .imported then [] else [.pointer]) else results := by
  unfold ofFlat
  by_cases stored : 1 < results.length
  · cases side <;> simp [stored, maxResults]
  · simp [stored, maxResults]

theorem length_params_ofFlat : (ofFlat side isMethod params results).params.length ≤ 17 := by
  have direct := length_passed side isMethod params
  cases side with
  | imported =>
    rw [params_imported, List.length_append]
    split
    · exact Nat.succ_le_succ direct
    · exact Nat.le_succ_of_le direct
  | exported =>
    rw [params_exported]
    exact Nat.le_succ_of_le direct

theorem length_results_ofFlat : (ofFlat side isMethod params results).results.length ≤ 1 := by
  rw [results_ofFlat]
  by_cases stored : 1 < results.length
  · cases side <;> simp [stored]
  · rw [if_neg stored]
    exact Nat.le_of_not_lt stored

/-- **The signatures made from the same flat forms agree.** -/
theorem agree_ofFlat :
    Agree isMethod params results (ofFlat .imported isMethod params results)
      (ofFlat .exported isMethod params results) where
  indirectParams := by simp only [indirectParams_ofFlat, decide_eq_true_eq, and_self]
  returnPointer := by simp only [returnPointer_ofFlat, decide_eq_true_eq, and_self]
  importedParams := by rw [params_imported, passed_imported]
  receiver := by
    rintro rfl fits isReceiver
    rw [params_exported, passed_receiver fits isReceiver]
  exportedParams noReceiver := by rw [params_exported, passed_exported noReceiver]
  importedResults := results_ofFlat ..
  exportedResults := results_ofFlat ..
  few signature member := by
    simp only [List.mem_cons, List.not_mem_nil, or_false] at member
    rcases member with rfl | rfl <;> exact ⟨length_params_ofFlat .., length_results_ofFlat ..⟩

end OfFlat

example : (ofFlat .imported false (List.replicate 16 .i32) [.pointer, .i32]).params.length = 17 := by
  decide

end Signature

namespace Graph

variable {graph : Graph} {function : Function}

/-- **The core signatures of a function agree.** Both are made from the flat forms of its parameters,
one after another, and those of its results. -/
theorem signatures_agree (isRead : graph.IsRead)
    (held : ∀ id, .defined id ∈ function.types → graph.Holds id.item)
    (grounded : ∀ type ∈ function.types, graph.IsGroundedType type) :
    ∃ params results imported exported,
      graph.HaveFlatForms (function.params.map Param.type) params
        ∧ graph.HaveFlatForms function.results.types results
        ∧ graph.signature .imported function = .ok imported
        ∧ graph.signature .exported function = .ok exported
        ∧ Signature.Agree function.kind.isMethod params.flatten results.flatten imported exported := by
  have linked := wellLinked_of_isRead isRead
  obtain ⟨params, areParams⟩ := linked.closed.exists_haveFlatForms linked.known
    (fun id member => held id (List.mem_append_left _ member))
    fun type member => grounded type (List.mem_append_left _ member)
  obtain ⟨results, areResults⟩ := linked.closed.exists_haveFlatForms linked.known
    (fun id member => held id (List.mem_append_right _ member))
    fun type member => grounded type (List.mem_append_right _ member)
  have isSignature (side : AbiSide) : graph.signature side function
      = .ok (.ofFlat side function.kind.isMethod params.flatten results.flatten) := by
    rw [signature, areParams.flatAll_eq, areResults.flatAll_eq]
    rfl
  exact ⟨params, results, _, _, areParams, areResults, isSignature .imported, isSignature .exported,
    Signature.agree_ofFlat _ _ _⟩

/-! ### A method with a string to return -/

/-- A method that is passed and returns a string. -/
def Sample.exchange : Function where
  name := "[method]blob.exchange"
  kind := .method ⟨2⟩
  params := [⟨"self", .defined ⟨3⟩⟩, ⟨"text", .primitive .string⟩]
  results := .named [⟨"text", .primitive .string⟩]

theorem Sample.isGrounded_blob : Sample.graph.IsGrounded ⟨2⟩ :=
  isGrounded_of_directIds fun _ member => by cases member

theorem Sample.isGrounded_borrowed : Sample.graph.IsGrounded ⟨3⟩ := by
  refine isGrounded_of_directIds fun other member => ?_
  have refersTo : Sample.graph.directIds ⟨3⟩ = [⟨2⟩] := rfl
  rw [refersTo, List.mem_singleton] at member
  exact member ▸ Sample.isGrounded_blob

/-- The imported method is passed a pointer to where the string is to be stored, and the receiver of
the exported one is a pointer. -/
theorem signatures_agree_method :
    Sample.graph.IsRead
      ∧ (∀ id, .defined id ∈ Sample.exchange.types → Sample.graph.Holds id.item)
      ∧ (∀ type ∈ Sample.exchange.types, Sample.graph.IsGroundedType type)
      ∧ ∃ imported exported, Sample.graph.signature .imported Sample.exchange = .ok imported
        ∧ Sample.graph.signature .exported Sample.exchange = .ok exported
        ∧ Signature.Agree true [.i32, .pointer, .i32] [.pointer, .i32] imported exported
        ∧ imported.params = [.i32, .pointer, .i32, .pointer]
        ∧ exported.params = [.pointer, .pointer, .i32] := by
  have isRead : Sample.graph.IsRead := ⟨_, Sample.accepted⟩
  have types : Sample.exchange.types
      = [.defined ⟨3⟩, .primitive .string, .primitive .string] := rfl
  have held : ∀ id, .defined id ∈ Sample.exchange.types → Sample.graph.Holds id.item := by
    intro id member
    obtain rfl : id = ⟨3⟩ := by simpa [types] using member
    decide
  have grounded : ∀ type ∈ Sample.exchange.types, Sample.graph.IsGroundedType type := by
    intro type member
    simp only [types, List.mem_cons, List.not_mem_nil, or_false] at member
    rcases member with rfl | rfl | rfl
    · exact Sample.isGrounded_borrowed
    · trivial
    · trivial
  obtain ⟨params, results, imported, exported, areParams, areResults, isImported, isExported, agree⟩ :=
    signatures_agree isRead held grounded
  have sameParams : params.flatten = [.i32, .pointer, .i32] := Except.ok.inj
    (areParams.flatAll_eq.symm.trans (by decide +kernel))
  have sameResults : results.flatten = [.pointer, .i32] := Except.ok.inj
    (areResults.flatAll_eq.symm.trans (by decide +kernel))
  rw [sameParams, sameResults] at agree
  refine ⟨isRead, held, grounded, imported, exported, isImported, isExported, agree,
    agree.importedParams, ?_⟩
  exact agree.receiver rfl (by decide) rfl

end Graph

end WitGraph
