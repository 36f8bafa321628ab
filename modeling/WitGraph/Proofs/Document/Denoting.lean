/-
**What JSON denotes.**

A reader makes a record of JSON and a linker makes a value of the record. `Denotes` says that both
succeed and what the value is. A value that is written should be denoted by what has been written;
this holds of a whole if it holds of its parts:

* `denotes_id` and `denotes_ref` are the leaves: positions and uses of types, which must be within
  their arenas (`Addresses`);
* `Denotes.nullable`, `Denotes.items` and `Denotes.whole` lead from a part to an optional part, a list
  of parts and a whole with one part;
* `denotes_entries` is for maps. Two keys with the same text are one key when they are read, so what
  is denoted is the map with its keys read again.
-/

import WitGraph.Document.Linking
import WitGraph.Proofs.Document.Records
import WitGraph.Proofs.OrderedMap

namespace WitGraph

/-! ### Numbers -/

namespace Json

theorem lt_of_index? {json : Json} {index : Nat} (read : json.index? = some index) :
    index < Number.wordLimit := by
  unfold index? at read
  split at read
  · unfold Number.index? at read
    split at read
    · cases read
    · dsimp only at read
      split at read
      · cases read
        assumption
      · cases read
  · cases read

theorem index?_nat {index : Nat} (fits : index < Number.wordLimit) :
    (nat index).index? = some index := by
  simp [index?, nat, Number.index?, Number.isInteger, Nat.ofDigitChars_ten_toDigits, fits]

end Json

namespace Document

open Json (Fields)

/-! ### Parts and wholes -/

/-- The JSON is read as a record that is linked to the value. -/
def Denotes {α β : Type} (read : Json → Option α) (link : α → Except Fault β) (json : Json)
    (value : β) : Prop :=
  ∃ record, read json = some record ∧ link record = .ok value

/-- Values each of which is read and linked are read and linked as a list. -/
theorem exists_mapM {α β γ : Type} {read : γ → Option α} {write : β → γ} {linked : α → β → Prop}
    {values : List β}
    (each : ∀ value ∈ values, ∃ record, read (write value) = some record ∧ linked record value) :
    ∃ records, (values.map write).mapM read = some records
      ∧ List.Forall₂ linked records values := by
  induction values with
  | nil => exact ⟨[], rfl, .nil⟩
  | cons first rest ih =>
    obtain ⟨head, readHead, linkedHead⟩ := each first (List.mem_cons_self ..)
    obtain ⟨tail, readTail, linkedTail⟩ := ih fun value inside =>
      each value (List.mem_cons_of_mem _ inside)
    refine ⟨head :: tail, ?_, .cons linkedHead linkedTail⟩
    rw [List.map_cons, List.mapM_cons, readHead, readTail]
    rfl

namespace Denotes

variable {α β γ δ : Type} {read : Json → Option α} {link : α → Except Fault β} {write : β → Json}

/-- An optional part, if no part is read from `null`. -/
theorem nullable {value : Option β} (absent : read .null = none)
    (each : ∀ content ∈ value, Denotes read link (write content) content) :
    Denotes (Json.nullable? read) (Kind.mapOptionM link) (.ofOption (value.map write)) value := by
  cases value with
  | none => exact ⟨none, rfl, rfl⟩
  | some content =>
    obtain ⟨record, readContent, linked⟩ := each content rfl
    exact ⟨some record, Json.nullable?_of_read absent readContent,
      Success.bind_eq_ok_iff.mpr ⟨content, linked, rfl⟩⟩

theorem items {values : List β} (each : ∀ value ∈ values, Denotes read link (write value) value) :
    Denotes (Json.items? read) (List.mapM link) (.array (values.map write)) values := by
  obtain ⟨records, readAll, pairs⟩ := exists_mapM each
  exact ⟨records, readAll, Success.mapM_eq_ok_iff.mpr pairs⟩

theorem list (name : String) {values : List β}
    (each : ∀ value ∈ values, Denotes read link (write value) value) :
    Denotes (readList? name read) (List.mapM link) (.record [(name, .array (values.map write))])
      values := by
  obtain ⟨records, readAll, linked⟩ := items each
  have fields : Json.fields? [name] (.record [(name, .array (values.map write))])
      = some [(name, .array (values.map write))] :=
    Json.fields?_record _ [name] _ (List.Sublist.refl _) (fun _ inside => inside)
      (List.nodup_singleton name)
  refine ⟨records, ?_, linked⟩
  rw [readList?, fields, Option.bind_eq_bind, Option.bind_some, Fields.required?,
    List.lookup_cons_self, Option.bind_some, readAll]

/-- A whole that consists of one part. -/
theorem whole {readWhole : Json → Option γ} {linkWhole : γ → Except Fault δ} {make : α → γ}
    {makeLinked : β → δ} {part json : Json} {value : β} (denotes : Denotes read link part value)
    (reads : readWhole json = (read part).bind fun record => some (make record))
    (links : ∀ record, linkWhole (make record) = link record >>= fun value => pure (makeLinked value)) :
    Denotes readWhole linkWhole json (makeLinked value) := by
  obtain ⟨record, readPart, linked⟩ := denotes
  refine ⟨make record, ?_, ?_⟩
  · rw [reads, readPart]
    rfl
  · rw [links, linked]
    rfl

end Denotes

/-! ### Maps -/

section Maps

variable {α β κ : Type} [DecidableEq κ] {read : Json → Option α} {write : β → Json}

/-- A map whose entries are linked in order. -/
def linkEntries (link : String × α → Except Fault (κ × β)) (map : OrderedMap String α) :
    Except Fault (OrderedMap κ β) := do
  return .ofList (← map.entries.mapM link)

/-- An entry whose value is linked, and whose key is made of its text and the value. -/
def linkEntry (key : String → β → κ) (link : String → α → Except Fault β) (entry : String × α) :
    Except Fault (κ × β) := do
  let value ← link entry.1 entry.2
  return (key entry.1 value, value)

/-- The value of a member is read. -/
def readMember? (read : Json → Option α) (member : String × Json) : Option (String × α) := do
  return (member.1, ← read member.2)

/-- What a map has been read and linked from. -/
theorem Denotes.exists_of_mem_entries {key : String → β → κ} {link : String → α → Except Fault β}
    {json : Json} {map : OrderedMap κ β}
    (denotes : Denotes (readMap? read) (linkEntries (linkEntry key link)) json map)
    {entry : κ × β} (member : entry ∈ map.entries) :
    ∃ name json, Denotes read (link name) json entry.2 ∧ entry.1 = key name entry.2 := by
  obtain ⟨records, found, linked⟩ := denotes
  obtain ⟨entries, linkedEntries, rfl⟩ := Success.bind_return_eq_ok_iff.mp linked
  obtain ⟨⟨name, record⟩, isRecord, linkedRecord⟩ := Success.exists_of_mem_right
    (Success.mapM_eq_ok_iff.mp linkedEntries) (OrderedMap.mem_entries_ofList member)
  obtain ⟨value, linkedValue, rfl⟩ := Success.bind_return_eq_ok_iff.mp linkedRecord
  obtain ⟨readEntries, areRead, rfl⟩ := Option.map_eq_some_iff.mp found
  obtain ⟨members, -, readMembers⟩ := Option.bind_eq_some_iff.mp areRead
  obtain ⟨source, -, readSource⟩ := Success.exists_of_mem_right
    (Success.mapM_eq_some_iff.mp readMembers) (OrderedMap.mem_entries_ofList isRecord)
  obtain ⟨record, readValue, ⟨⟩⟩ := Option.bind_eq_some_iff.mp readSource
  exact ⟨source.1, source.2, ⟨record, readValue, linkedValue⟩, rfl⟩

/-- **A map that is written denotes the map with its keys read again.** -/
theorem denotes_entries {text : κ → String} {key : String → β → κ}
    {link : String → α → Except Fault β} {map : OrderedMap κ β}
    (each : ∀ entry ∈ map.entries, Denotes read (link (text entry.1)) (write entry.2) entry.2) :
    Denotes (readMap? read) (linkEntries (linkEntry key link)) (map.toJson text write)
      (map.respelled text key) := by
  -- a record is read for each entry, under the text of its key
  have found : ∃ records,
      (map.entries.map fun entry => (text entry.1, write entry.2)).mapM (readMember? read)
          = some records
        ∧ List.Forall₂ (fun (record : String × α) (entry : κ × β) =>
            text entry.1 = record.1 ∧ link record.1 record.2 = .ok entry.2) records map.entries := by
    refine exists_mapM fun entry inside => ?_
    obtain ⟨record, readValue, linked⟩ := each entry inside
    exact ⟨(text entry.1, record), by simp [readMember?, readValue], rfl, linked⟩
  obtain ⟨records, readAll, pairs⟩ := found
  -- of several records under one text both maps keep the last, in the place of the first
  have kept : List.Forall₂ (fun (record : String × α) (entry : String × β) =>
      entry.1 = record.1 ∧ link record.1 record.2 = .ok entry.2)
      (OrderedMap.ofList records).entries (map.spelled text).entries :=
    OrderedMap.forall₂_ofList And.left (List.forall₂_map_right_iff.mpr pairs)
  refine ⟨.ofList records, ?_, ?_⟩
  · unfold readMap? Json.entries? OrderedMap.toJson
    rw [Json.members?_record, Option.bind_eq_bind, Option.bind_some]
    exact congrArg (Option.map OrderedMap.ofList) readAll
  · refine Success.bind_return_eq_ok_iff.mpr ⟨_, Success.mapM_eq_ok_iff.mpr ?_, rfl⟩
    refine List.forall₂_map_right_iff.mpr (kept.imp ?_)
    rintro ⟨name, record⟩ ⟨_, value⟩ ⟨⟨⟩, linked⟩
    exact Success.bind_return_eq_ok_iff.mpr ⟨value, linked, rfl⟩

/-- A map by names is denoted by what is written of it. -/
theorem denotes_map {link : String → α → Except Fault β} {map : OrderedMap String β}
    (each : ∀ entry ∈ map.entries, Denotes read (link entry.1) (write entry.2) entry.2) :
    Denotes (readMap? read) (linkMap link) (map.toJson (fun name => name) write) map := by
  have legible : map.IsLegible (fun name => name) fun name _ => name :=
    ⟨map.distinct, fun _ _ => rfl⟩
  have same := (OrderedMap.respelled_eq_self_iff fun _ _ => rfl).mpr legible
  have denotes : Denotes (readMap? read) (linkEntries (linkEntry (fun name _ => name) link))
      (map.toJson (fun name => name) write) (map.respelled (fun name => name) fun name _ => name) :=
    denotes_entries each
  rwa [same] at denotes

end Maps

/-! ### References -/

/-- The item is within its arena. -/
def Holds (document : Document) (item : Item) : Prop := item.index < document.size item.arena

/-- The item is within its arena, at a position that can be read. -/
def Addresses (document : Document) (item : Item) : Prop :=
  document.Holds item ∧ item.index < Number.wordLimit

variable {document : Document}

theorem linkId_eq_ok_iff {arena : Arena} {index : Nat} {id : Id arena} :
    document.linkId arena index = .ok id ↔ index < document.size arena ∧ ⟨index⟩ = id := by
  unfold linkId
  split
  · simp [*]
  · simp [*, fail]

theorem denotes_id {arena : Arena} {id : Id arena} (addressed : document.Addresses id.item) :
    Denotes Json.index? (document.linkId arena) id.toJson id :=
  ⟨id.index, Json.index?_nat addressed.2, linkId_eq_ok_iff.mpr ⟨addressed.1, rfl⟩⟩

theorem linkPackage?_eq : document.linkPackage? = Kind.mapOptionM (document.linkId .package) := by
  funext index
  cases index <;> rfl

theorem denotes_package? {package : Option PackageId}
    (addressed : ∀ id ∈ package, document.Addresses id.item) :
    Denotes (Json.nullable? Json.index?) document.linkPackage? (Id.optionToJson package) package := by
  rw [linkPackage?_eq]
  exact .nullable rfl fun id inside => denotes_id (addressed id inside)

theorem denotes_indices {arena : Arena} {map : OrderedMap String (Id arena)}
    (addressed : ∀ id ∈ map.values, document.Addresses id.item) :
    Denotes (readMap? Json.index?) (document.linkIndices arena) (Id.mapToJson map) map :=
  denotes_map fun entry inside =>
    denotes_id (addressed entry.2 ((map.mem_values_iff).mpr ⟨entry.1, inside⟩))

theorem denotes_ref {type : TypeRef}
    (addressed : ∀ id, type = .defined id → document.Addresses id.item) :
    Denotes readRef? document.linkRef type.toJson type := by
  cases type with
  | primitive primitive =>
    refine ⟨.name primitive.name, rfl, ?_⟩
    rw [linkRef, Primitive.ofName?_name]
  | defined id =>
    obtain ⟨index, readIndex, linked⟩ := denotes_id (addressed id rfl)
    exact ⟨.index index, congrArg (Option.map Ref.index) readIndex,
      Success.bind_eq_ok_iff.mpr ⟨id, linked, rfl⟩⟩

theorem denotes_ref? {type : Option TypeRef}
    (addressed : ∀ id, TypeRef.defined id ∈ type → document.Addresses id.item) :
    Denotes (Json.nullable? readRef?) (Kind.mapOptionM document.linkRef) (TypeRef.optionToJson type)
      type :=
  .nullable rfl fun _ inside => denotes_ref fun id same => addressed id (same ▸ inside)

end Document

end WitGraph
