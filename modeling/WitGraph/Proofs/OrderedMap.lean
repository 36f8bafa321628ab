/-
**Look-ups in maps with distinct keys.**

Where keys are distinct, looking a key up is finding its entry (`lookup_eq_some_iff`,
`OrderedMap.find?_eq_some_iff`). A map of some entries holds no others (`mem_entries_ofList`).

`OrderedMap.respelled` is what becomes of a map whose keys are written as texts and read from them.
Keys that have the same text are one key then; `respelled_eq_self_iff` says which maps stay as they
are.
-/

import Mathlib.Data.List.Forall2
import Mathlib.Data.List.Induction
import Mathlib.Data.List.Nodup
import WitGraph.OrderedMap
import WitGraph.Proofs.Success

namespace WitGraph

namespace OrderedMap

variable {κ ν μ : Type}

/-- Among entries with distinct keys, a key has the value that stands with it. -/
theorem lookup_eq_some_iff [DecidableEq κ] {entries : List (κ × ν)}
    (distinct : (entries.map Prod.fst).Nodup) {key : κ} {value : ν} :
    entries.lookup key = some value ↔ (key, value) ∈ entries := by
  induction entries with
  | nil => simp
  | cons entry rest ih =>
    obtain ⟨first, own⟩ := entry
    rw [List.map_cons, List.nodup_cons] at distinct
    by_cases same : key = first
    · subst same
      have apart : (key, value) ∉ rest := fun member =>
        distinct.1 (List.mem_map.mpr ⟨_, member, rfl⟩)
      simp [apart, eq_comm]
    · have differ : (key == first) = false := by simpa using same
      simp [List.lookup_cons, differ, same, ih distinct.2]

theorem find?_eq_some_iff [DecidableEq κ] (map : OrderedMap κ ν) {key : κ} {value : ν} :
    map.find? key = some value ↔ (key, value) ∈ map.entries :=
  lookup_eq_some_iff map.distinct

theorem mem_values_iff (map : OrderedMap κ ν) {value : ν} :
    value ∈ map.values ↔ ∃ key, (key, value) ∈ map.entries := by
  simp [values]

theorem mem_keys_iff (map : OrderedMap κ ν) {key : κ} :
    key ∈ map.keys ↔ ∃ value, (key, value) ∈ map.entries := by
  simp [keys]

theorem contains_iff [DecidableEq κ] (map : OrderedMap κ ν) {key : κ} :
    map.contains key = true ↔ key ∈ map.keys := by
  rw [contains, Option.isSome_iff_exists, mem_keys_iff]
  exact exists_congr fun value => map.find?_eq_some_iff

theorem filter_eq_self {map : OrderedMap κ ν} {keep : κ → ν → Bool}
    (all : ∀ entry ∈ map.entries, keep entry.1 entry.2 = true) : map.filter keep = map :=
  ext (List.filter_eq_self.mpr all)

theorem entries_insert [DecidableEq κ] (map : OrderedMap κ ν) (key : κ) (value : ν) :
    (map.insert key value).entries = if key ∈ map.keys then replaceEntry key value map.entries
      else map.entries ++ [(key, value)] := by
  unfold insert keys
  split <;> rfl

/-- A map holds only entries that have been put there. -/
theorem mem_entries_insert [DecidableEq κ] {map : OrderedMap κ ν} {key : κ} {value : ν} {entry : κ × ν}
    (member : entry ∈ (map.insert key value).entries) :
    entry = (key, value) ∨ entry ∈ map.entries := by
  rw [entries_insert] at member
  split at member
  · obtain ⟨other, inside, same⟩ := List.mem_map.mp member
    by_cases replaced : other.1 = key
    · rw [if_pos replaced] at same
      exact Or.inl same.symm
    · rw [if_neg replaced] at same
      exact Or.inr (same ▸ inside)
  · rcases List.mem_append.mp member with inside | last
    · exact Or.inr inside
    · exact Or.inl (List.mem_singleton.mp last)

theorem mem_entries_ofList [DecidableEq κ] {entries : List (κ × ν)} {entry : κ × ν}
    (member : entry ∈ (ofList entries).entries) : entry ∈ entries := by
  have from_ (entries : List (κ × ν)) (map : OrderedMap κ ν)
      (member : entry ∈ (entries.foldl (fun map entry => map.insert entry.1 entry.2) map).entries) :
      entry ∈ map.entries ∨ entry ∈ entries := by
    induction entries generalizing map with
    | nil => exact Or.inl member
    | cons first rest ih =>
      rcases ih _ member with inside | inRest
      · rcases mem_entries_insert inside with rfl | old
        · exact Or.inr (List.mem_cons_self ..)
        · exact Or.inl old
      · exact Or.inr (List.mem_cons_of_mem _ inRest)
  rcases from_ entries empty member with nothing | inside
  · cases nothing
  · exact inside

/-- Of each key a map keeps the place of its first entry. -/
theorem keys_ofList [DecidableEq κ] (entries : List (κ × ν)) :
    (ofList entries).keys = (entries.map Prod.fst).eraseDups := by
  induction entries using List.reverseRecOn with
  | nil => rfl
  | append_singleton earlier last ih =>
    have inserted : ofList (earlier ++ [last]) = (ofList earlier).insert last.1 last.2 := by
      unfold ofList
      rw [List.foldl_append]
      rfl
    rw [inserted, keys_insert, ih, List.map_append, List.map_singleton, List.eraseDups_append]
    by_cases known : last.1 ∈ earlier.map Prod.fst
    · have nothing : [last.1].removeAll (earlier.map Prod.fst) = [] := by
        simpa [List.removeAll] using known
      rw [if_pos (List.mem_eraseDups.mpr known), nothing, List.eraseDups_nil, List.append_nil]
    · have itself : [last.1].removeAll (earlier.map Prod.fst) = [last.1] := by
        simpa [List.removeAll] using known
      rw [if_neg (mt List.mem_eraseDups.mp known), itself]
      rfl

/-! ### Maps of related entries -/

section Related

variable [DecidableEq κ] {related : κ × ν → κ × μ → Prop}
  (sameKey : ∀ {entry other}, related entry other → other.1 = entry.1)
include sameKey

theorem forall₂_insert {map : OrderedMap κ ν} {other : OrderedMap κ μ} {key : κ} {value : ν}
    {otherValue : μ} (pairs : List.Forall₂ related map.entries other.entries)
    (last : related (key, value) (key, otherValue)) :
    List.Forall₂ related (map.insert key value).entries (other.insert key otherValue).entries := by
  have keys : other.keys = map.keys := Success.map_eq_map pairs fun _ _ _ => sameKey
  rw [entries_insert, entries_insert, keys]
  split
  · refine List.forall₂_map_left_iff.mpr (List.forall₂_map_right_iff.mpr ?_)
    refine pairs.imp fun entry other pair => ?_
    rw [sameKey pair]
    split
    · exact last
    · exact pair
  · exact List.rel_append pairs (.cons last .nil)

/-- Maps of related entries, in which the same keys stand in the same order, have related entries. -/
theorem forall₂_ofList {entries : List (κ × ν)} {others : List (κ × μ)}
    (pairs : List.Forall₂ related entries others) :
    List.Forall₂ related (ofList entries).entries (ofList others).entries := by
  have from_ (map : OrderedMap κ ν) (other : OrderedMap κ μ)
      (before : List.Forall₂ related map.entries other.entries) :
      List.Forall₂ related (entries.foldl (fun map entry => map.insert entry.1 entry.2) map).entries
        (others.foldl (fun map entry => map.insert entry.1 entry.2) other).entries := by
    induction pairs generalizing map other with
    | nil => exact before
    | @cons entry next _ _ pair _ ih =>
      obtain ⟨key, value⟩ := entry
      obtain ⟨otherKey, otherValue⟩ := next
      cases (sameKey pair : otherKey = key)
      exact ih _ _ (forall₂_insert sameKey before pair)
  exact from_ empty empty .nil

end Related

/-! ### Keys that are written and read again -/

section Respelling

variable [DecidableEq κ] {text : κ → String} {key : String → ν → κ}

/-- The entries under the texts of their keys. -/
def spelled (text : κ → String) (map : OrderedMap κ ν) : OrderedMap String ν :=
  .ofList (map.entries.map fun entry => (text entry.1, entry.2))

/-- The map with its keys written as texts and read again. -/
def respelled (text : κ → String) (key : String → ν → κ) (map : OrderedMap κ ν) :
    OrderedMap κ ν :=
  .ofList ((map.spelled text).entries.map fun entry => (key entry.1 entry.2, entry.2))

/-- No two keys have the same text, and every key is read from its text. -/
def IsLegible (text : κ → String) (key : String → ν → κ) (map : OrderedMap κ ν) : Prop :=
  (map.entries.map fun entry => text entry.1).Nodup
    ∧ ∀ entry ∈ map.entries, key (text entry.1) entry.2 = entry.1

variable (reads : ∀ name value, text (key name value) = name)
include reads

theorem entries_respelled (map : OrderedMap κ ν) :
    (map.respelled text key).entries
      = (map.spelled text).entries.map fun entry => (key entry.1 entry.2, entry.2) := by
  refine entries_ofList (List.Nodup.of_map text ?_)
  have texts : ((map.spelled text).entries.map fun entry => (key entry.1 entry.2, entry.2)).map
      (text ∘ Prod.fst) = (map.spelled text).entries.map Prod.fst := by
    rw [List.map_map]
    exact List.map_congr_left fun entry _ => reads entry.1 entry.2
  rw [List.map_map, texts]
  exact (map.spelled text).distinct

/-- **A map stays as it is exactly if its keys are told apart by their texts and read from them.** -/
theorem respelled_eq_self_iff {map : OrderedMap κ ν} :
    map.respelled text key = map ↔ map.IsLegible text key := by
  have entries := entries_respelled reads map
  constructor
  · intro same
    rw [same] at entries
    constructor
    · have texts : map.entries.map (fun entry => text entry.1)
          = (map.spelled text).entries.map Prod.fst := by
        rw [entries, List.map_map]
        exact List.map_congr_left fun entry _ => reads entry.1 entry.2
      rw [texts]
      exact (map.spelled text).distinct
    · intro entry member
      rw [entries] at member
      obtain ⟨spelledEntry, -, rfl⟩ := List.mem_map.mp member
      rw [reads]
  · rintro ⟨distinct, readBack⟩
    have kept : (map.spelled text).entries = map.entries.map fun entry => (text entry.1, entry.2) := by
      refine entries_ofList ?_
      rwa [List.map_map]
    ext1
    rw [entries, kept, List.map_map]
    refine (List.map_congr_left fun entry member => ?_).trans (List.map_id _)
    exact Prod.ext (readBack entry member) rfl

end Respelling

end OrderedMap

end WitGraph
