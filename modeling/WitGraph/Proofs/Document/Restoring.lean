/-
**Parts that are restored.**

A part of a document is restored (`Restores`) if whatever has been read and linked is denoted by what
is written of it. The second document need not be the first one; it only has arenas of the same sizes.

* `restores_id` and `restores_ref` are the leaves: positions and uses of types;
* `Restores.nullable`, `Restores.items` and `Restores.map` carry the property from a part to an
  optional part, a list of parts and a map of parts.
-/

import WitGraph.Proofs.Document.Denoting

namespace WitGraph.Document

/-! ### Restored parts -/

/-- What has been read and linked is written in a form that is read and linked to the same. -/
def Restores {α β : Type} (read : Json → Option α) (link relink : α → Except Fault β)
    (write : β → Json) : Prop :=
  ∀ ⦃json record value⦄, read json = some record → link record = .ok value →
    ∃ again, read (write value) = some again ∧ relink again = .ok value

namespace Restores

variable {α β : Type} {read : Json → Option α} {link relink : α → Except Fault β}
  {write : β → Json}

theorem denotes (part : Restores read link relink write) {json : Json} {value : β}
    (denoted : Denotes read link json value) : Denotes read relink (write value) value := by
  obtain ⟨record, found, linked⟩ := denoted
  exact part found linked

/-- Optional parts are restored, if no part is read from `null`. -/
theorem nullable (part : Restores read link relink write) (absent : read .null = none) :
    Restores (Json.nullable? read) (Kind.mapOptionM link) (Kind.mapOptionM relink)
      fun value => .ofOption (value.map write) := by
  intro json record value found linked
  refine Denotes.nullable absent ?_
  rintro content rfl
  cases record with
  | none => cases linked
  | some record =>
    obtain ⟨_, linkedContent, ⟨⟩⟩ := Success.bind_return_eq_ok_iff.mp linked
    exact part (Json.read_of_nullable? found) linkedContent

theorem exists_items {read : Json → Option α} {write : β → Json} {linked relinked : α → β → Prop}
    (part : ∀ ⦃json record value⦄, read json = some record → linked record value →
      ∃ again, read (write value) = some again ∧ relinked again value)
    {json : Json} {records : List α} {values : List β}
    (found : Json.items? read json = some records) (pairs : List.Forall₂ linked records values) :
    ∃ again, Json.items? read (.array (values.map write)) = some again
      ∧ List.Forall₂ relinked again values := by
  refine exists_mapM fun value inside => ?_
  obtain ⟨record, isRecord, linkedRecord⟩ := Success.exists_of_mem_right pairs inside
  obtain ⟨_, readRecord⟩ := Json.exists_of_mem_items? found isRecord
  exact part readRecord linkedRecord

theorem items (part : Restores read link relink write) :
    Restores (Json.items? read) (List.mapM link) (List.mapM relink)
      fun values => .array (values.map write) := by
  intro json records values found linked
  refine Denotes.items fun value inside => ?_
  obtain ⟨record, isRecord, linkedRecord⟩ :=
    Success.exists_of_mem_right (Success.mapM_eq_ok_iff.mp linked) inside
  obtain ⟨_, readRecord⟩ := Json.exists_of_mem_items? found isRecord
  exact part readRecord linkedRecord

/-- What is read back from what is written, whatever it is, is restored. -/
theorem of_reads {read : Json → Option β} (reads : ∀ value, read (write value) = some value) :
    Restores read Except.ok Except.ok write := by
  intro json record value _ linked
  exact ⟨value, reads value, rfl⟩

theorem list (part : Restores read link relink write) (name : String) :
    Restores (readList? name read) (List.mapM link) (List.mapM relink)
      fun values => .record [(name, .array (values.map write))] := by
  intro json records values found linked
  obtain ⟨_, -, isField⟩ := Option.bind_eq_some_iff.mp found
  obtain ⟨item, readItems⟩ := Json.exists_of_required? isField
  refine Denotes.list name fun value inside => ?_
  obtain ⟨record, isRecord, linkedRecord⟩ :=
    Success.exists_of_mem_right (Success.mapM_eq_ok_iff.mp linked) inside
  obtain ⟨_, readRecord⟩ := Json.exists_of_mem_items? readItems isRecord
  exact part readRecord linkedRecord

/-- A whole that consists of one part is restored. -/
theorem whole {γ δ : Type} {readWhole : Json → Option γ} {linkWhole relinkWhole : γ → Except Fault δ}
    {writeWhole : δ → Json} (restored : Restores read link relink write) {make : α → γ}
    {makeLinked : β → δ}
    (reads : ∀ value, readWhole (writeWhole (makeLinked value))
      = (read (write value)).bind fun part => some (make part))
    (links : ∀ record, linkWhole (make record) = link record >>= fun value => pure (makeLinked value))
    (relinks : ∀ record,
      relinkWhole (make record) = relink record >>= fun value => pure (makeLinked value))
    {json : Json} {record : γ} {value : δ}
    (found : ((read json).bind fun part => some (make part)) = some record)
    (linked : linkWhole record = .ok value) :
    ∃ again, readWhole (writeWhole value) = some again ∧ relinkWhole again = .ok value := by
  obtain ⟨part, readPart, ⟨⟩⟩ := Option.bind_eq_some_iff.mp found
  rw [links] at linked
  obtain ⟨content, linkedContent, rfl⟩ := Success.bind_return_eq_ok_iff.mp linked
  exact Denotes.whole (restored readPart linkedContent) (reads content) relinks

end Restores

/-! ### Restored maps -/

section Maps

variable {α β κ : Type} [DecidableEq κ] {read : Json → Option α} {write : β → Json}

/-- Maps are restored if each value is, under the text from which its key has been read. -/
theorem Restores.entries {link relink : String → α → Except Fault β} {text : κ → String}
    {key : String → β → κ} (reads : ∀ name value, text (key name value) = name)
    (part : ∀ name, Restores read (link name) (relink name) write) :
    Restores (readMap? read) (linkEntries (linkEntry key link)) (linkEntries (linkEntry key relink))
      (OrderedMap.toJson text write) := by
  intro json records values found linked
  have denoted : Denotes (readMap? read) (linkEntries (linkEntry key link)) json values :=
    ⟨records, found, linked⟩
  have denotes : Denotes (readMap? read) (linkEntries (linkEntry key relink))
      (values.toJson text write) (values.respelled text key) := by
    refine denotes_entries fun entry inside => ?_
    obtain ⟨name, _, denotesValue, isKey⟩ := denoted.exists_of_mem_entries inside
    rw [isKey, reads]
    exact (part name).denotes denotesValue
  -- the texts of the keys are those that were read, so the map is legible
  have legible : values.IsLegible text key := by
    obtain ⟨entries, linkedEntries, rfl⟩ := Success.bind_return_eq_ok_iff.mp linked
    have texts : entries.map (fun entry => text entry.1) = records.entries.map Prod.fst := by
      refine Success.map_eq_map (Success.mapM_eq_ok_iff.mp linkedEntries) fun record _ entry made => ?_
      obtain ⟨value, -, rfl⟩ := Success.bind_return_eq_ok_iff.mp made
      exact reads record.1 value
    have distinctTexts : (entries.map fun entry => text entry.1).Nodup := texts ▸ records.distinct
    have distinct : (entries.map Prod.fst).Nodup := by
      refine List.Nodup.of_map text ?_
      rwa [List.map_map]
    refine ⟨by rwa [OrderedMap.entries_ofList distinct], fun entry inside => ?_⟩
    obtain ⟨name, _, -, isKey⟩ := denoted.exists_of_mem_entries inside
    rw [isKey, reads]
  rwa [(OrderedMap.respelled_eq_self_iff reads).mpr legible] at denotes

/-- Maps by name are restored if each value is. -/
theorem Restores.map {link relink : String → α → Except Fault β}
    (part : ∀ name, Restores read (link name) (relink name) write) :
    Restores (readMap? read) (linkMap link) (linkMap relink)
      (OrderedMap.toJson (fun name => name) write) := by
  show Restores (readMap? read) (linkEntries (linkEntry (fun name _ => name) link))
    (linkEntries (linkEntry (fun name _ => name) relink)) _
  exact Restores.entries (fun _ _ => rfl) part

end Maps

/-! ### References -/

theorem index?_of_readRef? {json : Json} {index : Nat}
    (found : readRef? json = some (.index index)) : json.index? = some index := by
  unfold readRef? at found
  split at found
  · obtain ⟨_, isIndex, ⟨⟩⟩ := Option.map_eq_some_iff.mp found
    exact isIndex
  · simp at found
  · cases found

variable {document rewritten : Document}
  (sameSize : ∀ arena, rewritten.size arena = document.size arena)
include sameSize

/-- A position that has been read and linked can be read and linked again. -/
theorem addresses_of_index? {arena : Arena} {json : Json} {index : Nat} {id : Id arena}
    (found : json.index? = some index) (linked : document.linkId arena index = .ok id) :
    rewritten.Addresses id.item := by
  obtain ⟨inside, rfl⟩ := linkId_eq_ok_iff.mp linked
  have holds : index < rewritten.size arena := sameSize arena ▸ inside
  exact ⟨holds, Json.lt_of_index? found⟩

theorem restores_id (arena : Arena) :
    Restores Json.index? (document.linkId arena) (rewritten.linkId arena) Id.toJson :=
  fun _ _ _ found linked => denotes_id (addresses_of_index? sameSize found linked)

theorem restores_package? :
    Restores (Json.nullable? Json.index?) document.linkPackage? rewritten.linkPackage?
      Id.optionToJson := by
  rw [linkPackage?_eq, linkPackage?_eq]
  exact (restores_id sameSize .package).nullable rfl

theorem restores_indices (arena : Arena) :
    Restores (readMap? Json.index?) (document.linkIndices arena) (rewritten.linkIndices arena)
      Id.mapToJson :=
  Restores.map fun _ => restores_id sameSize arena

theorem restores_ref :
    Restores readRef? document.linkRef rewritten.linkRef TypeRef.toJson := by
  intro json ref type found linked
  refine denotes_ref ?_
  rintro id rfl
  cases ref with
  | index index =>
    obtain ⟨_, linkedId, ⟨⟩⟩ := Success.bind_return_eq_ok_iff.mp linked
    exact addresses_of_index? sameSize (index?_of_readRef? found) linkedId
  | name name =>
    simp only [linkRef] at linked
    split at linked <;> cases linked

theorem restores_ref? :
    Restores (Json.nullable? readRef?) (Kind.mapOptionM document.linkRef)
      (Kind.mapOptionM rewritten.linkRef) TypeRef.optionToJson :=
  (restores_ref sameSize).nullable rfl

end WitGraph.Document
