/-
**Maps that remember the order of insertion.**

An `OrderedMap` is a list of entries with distinct keys. Inserting a key that is there keeps its
place and changes its value; a new key goes to the end. So `ofList` keeps, of each key, the place
of the first entry and the value of the last one.

* `keys_insert` says what insertion does to the keys;
* `entries_ofList` says that entries with distinct keys are kept as they are.
-/

namespace WitGraph

/-- Entries with distinct keys, in the order of insertion. -/
structure OrderedMap (κ ν : Type) where
  entries : List (κ × ν)
  distinct : (entries.map Prod.fst).Nodup

namespace OrderedMap

variable {κ ν μ : Type}

/-- The map without entries. -/
def empty : OrderedMap κ ν := ⟨[], List.nodup_nil⟩

instance : EmptyCollection (OrderedMap κ ν) := ⟨empty⟩
instance : Inhabited (OrderedMap κ ν) := ⟨empty⟩

instance [Repr κ] [Repr ν] : Repr (OrderedMap κ ν) := ⟨fun map _ => repr map.entries⟩

/-- Maps are equal when their entries are. -/
@[ext] theorem ext {first second : OrderedMap κ ν} (equal : first.entries = second.entries) :
    first = second := by
  cases first; cases second; simp_all

instance [DecidableEq κ] [DecidableEq ν] : DecidableEq (OrderedMap κ ν) := fun first second =>
  decidable_of_iff (first.entries = second.entries) ⟨ext, fun equal => equal ▸ rfl⟩

/-- The keys in order. -/
def keys (map : OrderedMap κ ν) : List κ := map.entries.map Prod.fst

/-- The values in the order of their keys. -/
def values (map : OrderedMap κ ν) : List ν := map.entries.map Prod.snd

/-- How many entries there are. -/
def size (map : OrderedMap κ ν) : Nat := map.entries.length

/-- The value under `key`. -/
def find? [DecidableEq κ] (map : OrderedMap κ ν) (key : κ) : Option ν :=
  map.entries.lookup key

/-- Whether `key` has a value. -/
def contains [DecidableEq κ] (map : OrderedMap κ ν) (key : κ) : Bool :=
  (map.find? key).isSome

/-! ### Building -/

/-- The entries with the value under `key` changed. -/
def replaceEntry [DecidableEq κ] (key : κ) (value : ν) (entries : List (κ × ν)) : List (κ × ν) :=
  entries.map fun entry => if entry.1 = key then (key, value) else entry

/-- Changing a value keeps the keys. -/
theorem map_fst_replaceEntry [DecidableEq κ] (key : κ) (value : ν) (entries : List (κ × ν)) :
    (replaceEntry key value entries).map Prod.fst = entries.map Prod.fst := by
  induction entries with
  | nil => rfl
  | cons entry rest ih =>
    by_cases same : entry.1 = key <;> simp_all [replaceEntry]

/-- The map with `value` under `key`. -/
def insert [DecidableEq κ] (map : OrderedMap κ ν) (key : κ) (value : ν) : OrderedMap κ ν :=
  if present : key ∈ map.entries.map Prod.fst then
    ⟨replaceEntry key value map.entries, by
      rw [map_fst_replaceEntry]; exact map.distinct⟩
  else
    ⟨map.entries ++ [(key, value)], by
      rw [List.map_append, List.nodup_append]
      refine ⟨map.distinct, by simp, ?_⟩
      intro first firstMember second secondMember equal
      simp only [List.map_cons, List.map_nil, List.mem_singleton] at secondMember
      exact present (secondMember ▸ equal ▸ firstMember)⟩

/-- The map of some entries, later values replacing earlier ones in place. -/
def ofList [DecidableEq κ] (entries : List (κ × ν)) : OrderedMap κ ν :=
  entries.foldl (fun map entry => map.insert entry.1 entry.2) empty

/-- The map with every value changed. -/
def mapValues (map : OrderedMap κ ν) (change : ν → μ) : OrderedMap κ μ :=
  ⟨map.entries.map fun entry => (entry.1, change entry.2), by
    have same : (map.entries.map fun entry => (entry.1, change entry.2)).map Prod.fst
        = map.entries.map Prod.fst := by simp
    rw [same]; exact map.distinct⟩

/-- The map with only the entries that are to be kept. -/
def filter (map : OrderedMap κ ν) (keep : κ → ν → Bool) : OrderedMap κ ν :=
  ⟨map.entries.filter fun entry => keep entry.1 entry.2,
    (List.filter_sublist.map Prod.fst).nodup map.distinct⟩

/-- The map without `key`. -/
def erase [DecidableEq κ] (map : OrderedMap κ ν) (key : κ) : OrderedMap κ ν :=
  map.filter fun other _ => other ≠ key

/-! ### Laws -/

/-- An empty map has no entries. -/
@[simp] theorem entries_empty : (empty : OrderedMap κ ν).entries = [] := rfl

/-- A new key goes to the end, and a key that is there stays where it is. -/
theorem keys_insert [DecidableEq κ] (map : OrderedMap κ ν) (key : κ) (value : ν) :
    (map.insert key value).keys = if key ∈ map.keys then map.keys else map.keys ++ [key] := by
  unfold insert keys
  split <;> rename_i present
  · simp [map_fst_replaceEntry]
  · simp

/-- A new entry goes to the end. -/
theorem entries_insert_of_not_mem [DecidableEq κ] {map : OrderedMap κ ν} {key : κ}
    (absent : key ∉ map.keys) (value : ν) :
    (map.insert key value).entries = map.entries ++ [(key, value)] := by
  unfold insert
  split <;> rename_i present
  · exact absurd present absent
  · rfl

/-- Entries with distinct keys go to the end of a map that has none of the keys. -/
theorem entries_foldl_insert [DecidableEq κ] (entries : List (κ × ν)) (map : OrderedMap κ ν)
    (distinct : (map.keys ++ entries.map Prod.fst).Nodup) :
    (entries.foldl (fun map entry => map.insert entry.1 entry.2) map).entries
      = map.entries ++ entries := by
  induction entries generalizing map with
  | nil => simp
  | cons entry rest ih =>
    have absent : entry.1 ∉ map.keys := fun member => by
      have apart := (List.nodup_append.mp distinct).2.2
      exact apart _ member _ (by simp) rfl
    rw [List.foldl_cons, ih]
    · simp [entries_insert_of_not_mem absent]
    · rw [keys_insert, if_neg absent]; simpa using distinct

/-- Entries with distinct keys are kept as they are. -/
theorem entries_ofList [DecidableEq κ] {entries : List (κ × ν)}
    (distinct : (entries.map Prod.fst).Nodup) : (ofList entries).entries = entries := by
  unfold ofList
  rw [entries_foldl_insert]
  · simp
  · simpa [keys] using distinct

end OrderedMap

end WitGraph
