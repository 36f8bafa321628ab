/-
**Slots that payloads share.**

The payloads of a variant are merged one after another into the slots behind its tag. What comes out
does not depend on how: a slot has the join of the entries that flat forms of payloads have there
(`getElem?_joinAll`), where a flat form without such an entry counts for nothing. Joining core types
is associative, commutative and idempotent, so the order of the payloads does not matter either
(`joinAll_perm`).

* `mergeAt_append`: merging behind other entries leaves these as they are;
* `pushCases_eq`: what is pushed for a variant are its tag and the joined slots, behind whatever has
  been pushed before.
-/

import Mathlib.Data.List.Perm.Basic
import WitGraph.Abi.Flattening
import WitGraph.Proofs.Success

namespace WitGraph

/-! ### Joins -/

namespace CoreType

instance : Std.IdempotentOp join where
  idempotent _ := if_pos rfl

instance : Std.Commutative join where
  comm first second := by cases first <;> cases second <;> rfl

instance : Std.Associative join where
  assoc first second third := by cases first <;> cases second <;> cases third <;> rfl

/-- A slot has room for what it is shared by. -/
theorem bytes_le_join_left (first second : CoreType) : first.bytes ≤ (first.join second).bytes := by
  cases first <;> cases second <;> decide

theorem bytes_le_join_right (first second : CoreType) : second.bytes ≤ (first.join second).bytes := by
  have swapped : first.join second = second.join first := Std.Commutative.comm first second
  rw [swapped]
  exact second.bytes_le_join_left first

end CoreType

open CoreType

/-- The slots that two flat forms share, those of the longer one standing for themselves at the end. -/
def joinSlots : List CoreType → List CoreType → List CoreType
  | [], second => second
  | first :: rest, [] => first :: rest
  | first :: rest, second :: others => first.join second :: joinSlots rest others

/-- The slots that flat forms share. -/
def joinAll (flats : List (List CoreType)) : List CoreType := flats.foldl joinSlots []

/-- The join of the entries that flat forms have in a slot; a flat form may have none. -/
def joinedEntry (flats : List (List CoreType)) (slot : Nat) : Option CoreType :=
  (flats.map (·[slot]?)).foldl (Option.merge join) none

theorem joinSlots_nil (flat : List CoreType) : joinSlots flat [] = flat := by
  cases flat <;> rfl

theorem getElem?_joinSlots (first second : List CoreType) (slot : Nat) :
    (joinSlots first second)[slot]? = Option.merge join first[slot]? second[slot]? := by
  induction first generalizing second slot with
  | nil => cases found : second[slot]? <;> simp [joinSlots, Option.merge, found]
  | cons entry rest ih =>
    cases second with
    | nil => cases found : (entry :: rest)[slot]? <;> simp [joinSlots, Option.merge, found]
    | cons other others =>
      cases slot with
      | zero => rfl
      | succ slot => simpa [joinSlots] using ih others slot

theorem length_joinSlots (first second : List CoreType) :
    (joinSlots first second).length = max first.length second.length := by
  induction first generalizing second with
  | nil => simp [joinSlots]
  | cons entry rest ih =>
    cases second with
    | nil => simp [joinSlots]
    | cons other others =>
      have tail := ih others
      simp only [joinSlots, List.length_cons]
      omega

/-- **A slot has the join of the entries there.** -/
theorem getElem?_joinAll (flats : List (List CoreType)) (slot : Nat) :
    (joinAll flats)[slot]? = joinedEntry flats slot := by
  rw [joinedEntry, List.foldl_map, joinAll]
  exact (List.foldl_hom (fun flat : List CoreType => flat[slot]?)
    (fun first second => (getElem?_joinSlots first second slot).symm)).symm

/-- There are as many slots as the longest flat form has entries. -/
theorem length_joinAll (flats : List (List CoreType)) :
    (joinAll flats).length = (flats.map List.length).foldl max 0 := by
  rw [List.foldl_map, joinAll]
  exact (List.foldl_hom List.length
    (fun first second => (length_joinSlots first second).symm)).symm

/-- The order of the flat forms does not matter. -/
theorem joinAll_perm {flats others : List (List CoreType)} (permuted : flats.Perm others) :
    joinAll flats = joinAll others := by
  refine List.ext_getElem? fun slot => ?_
  rw [getElem?_joinAll, getElem?_joinAll]
  exact (permuted.map (·[slot]?)).foldl_op_eq

/-! ### Wide enough, and no wider than needed -/

section Entries

variable {entries : List (Option CoreType)} {entry : CoreType}

theorem bytes_le_foldl_merge (entries : List (Option CoreType)) (start : CoreType) :
    ∃ joined, entries.foldl (Option.merge join) (some start) = some joined
      ∧ start.bytes ≤ joined.bytes := by
  induction entries generalizing start with
  | nil => exact ⟨start, rfl, Nat.le_refl _⟩
  | cons first rest ih =>
    cases first with
    | none => exact ih start
    | some other =>
      obtain ⟨joined, isJoined, wide⟩ := ih (start.join other)
      exact ⟨joined, isJoined, Nat.le_trans (start.bytes_le_join_left other) wide⟩

/-- A join is at least as wide as what is joined. -/
theorem bytes_le_of_mem (start : Option CoreType) (member : some entry ∈ entries) :
    ∃ joined, entries.foldl (Option.merge join) start = some joined ∧ entry.bytes ≤ joined.bytes := by
  induction entries generalizing start with
  | nil => cases member
  | cons first rest ih =>
    rcases List.mem_cons.mp member with rfl | inRest
    · cases start with
      | none => exact bytes_le_foldl_merge rest entry
      | some other =>
        obtain ⟨joined, isJoined, wide⟩ := bytes_le_foldl_merge rest (other.join entry)
        exact ⟨joined, isJoined, Nat.le_trans (other.bytes_le_join_right entry) wide⟩
    · exact ih _ inRest

/-- The join of entries that agree is what they agree on. -/
theorem foldl_merge_of_agree (agree : ∀ other, some other ∈ entries → other = entry)
    {start : Option CoreType} (begins : start = none ∨ start = some entry) {joined : CoreType}
    (isJoined : entries.foldl (Option.merge join) start = some joined) : joined = entry := by
  induction entries generalizing start with
  | nil =>
    rcases begins with rfl | rfl
    · cases isJoined
    · exact (Option.some.inj isJoined).symm
  | cons first rest ih =>
    refine ih (fun other inRest => agree other (List.mem_cons_of_mem _ inRest)) ?_ isJoined
    cases first with
    | none => rcases begins with rfl | rfl <;> simp [Option.merge]
    | some other =>
      obtain rfl := agree other (List.mem_cons_self ..)
      rcases begins with rfl | rfl <;> simp [Option.merge, Std.IdempotentOp.idempotent]

end Entries

/-! ### Merging -/

/-- The flat form of a type on its own. -/
def PushRef.alone (push : PushRef) (type : TypeRef) : Except AbiFault (List CoreType) :=
  (push #[] type).map Array.toList

/-- **Merging behind other entries leaves these as they are** and joins what is there with what is
merged. -/
theorem FlatForm.mergeAt_append (before present types : List CoreType) :
    mergeAt (before ++ present).toArray before.length types
      = (before ++ joinSlots present types).toArray := by
  -- an entry that has been joined moves from what is present to what stands before
  induction types generalizing before present with
  | nil => rw [joinSlots_nil, mergeAt]
  | cons type rest ih =>
    cases present with
    | nil =>
      have pushed : joinAt (before ++ []).toArray before.length type = (before ++ [type] ++ []).toArray := by
        simp [joinAt]
      have next := ih (before ++ [type]) []
      rw [List.length_append, List.length_singleton] at next
      rw [mergeAt, pushed, next]
      simp [joinSlots]
    | cons slot others =>
      have joined : joinAt (before ++ slot :: others).toArray before.length type
          = (before ++ [slot.join type] ++ others).toArray := by
        simp [joinAt]
      have next := ih (before ++ [slot.join type]) others
      rw [List.length_append, List.length_singleton] at next
      rw [mergeAt, joined, next]
      simp [joinSlots]

theorem Kind.pushPayloads_append (push : PushRef) (before present : List CoreType)
    (payloads : List TypeRef) :
    pushPayloads push before.length (before ++ present).toArray payloads
      = (payloads.mapM push.alone).map fun flats => (before ++ flats.foldl joinSlots present).toArray := by
  induction payloads generalizing present with
  | nil => rfl
  | cons payload rest ih =>
    rw [pushPayloads, List.foldlM_cons, List.mapM_cons, PushRef.alone]
    cases push #[] payload with
    | error fault => rfl
    | ok pushed =>
      have others := ih (joinSlots present pushed.toList)
      rw [← FlatForm.mergeAt_append] at others
      refine Eq.trans others ?_
      -- of the other payloads, the first one without a flat form is the fault of both sides
      show _ = Except.map _ (rest.mapM push.alone >>= fun flats => pure (pushed.toList :: flats))
      cases rest.mapM push.alone <;> rfl

/-- **A variant is pushed as its tag and the slots that its payloads share.** -/
theorem Kind.pushCases_eq (push : PushRef) (flat : FlatForm) (cases : List (Option TypeRef)) :
    pushCases push flat cases
      = ((cases.filterMap fun payload => payload).mapM push.alone).map fun flats =>
          flat ++ (.ofInt (.ofCases cases.length) :: joinAll flats) := by
  have tagged : (flat.toList ++ [CoreType.ofInt (.ofCases cases.length)] ++ []).toArray
      = flat.push (.ofInt (.ofCases cases.length)) := Array.toList_inj.mp (by simp)
  have payloads := pushPayloads_append push (flat.toList ++ [.ofInt (.ofCases cases.length)]) []
    (cases.filterMap fun payload => payload)
  rw [tagged, List.length_append, List.length_singleton, Array.length_toList] at payloads
  rw [pushCases, Array.size_push, payloads]
  refine congrArg (Except.map · _) (funext fun flats => Array.toList_inj.mp ?_)
  simp [joinAll]

end WitGraph
