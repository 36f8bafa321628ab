/-
**Records that are written.**

A record whose members have distinct names among those that the reader knows is read as it stands
(`fields?_record`). The optional members at its end, documentation and stability, are found again
wherever they stand (`docsOf?_append`, `stabilityOf?_append`), so the readers of records need only
look at their own members.
-/

import WitGraph.Document.Reading
import WitGraph.Document.Writing
import WitGraph.Proofs.Success
import WitGraph.Proofs.Version

namespace WitGraph

open Json (Fields)

namespace Json

/-! ### Fields -/

theorem mapM_keyed? (members : List (String × Json)) :
    (members.map fun member => ((some member.1 : Contents), member.2)).mapM keyed?
      = some members := by
  induction members with
  | nil => rfl
  | cons first rest ih =>
    rw [List.map_cons, List.mapM_cons, ih]
    rfl

/-- The names of members that are read are the names that they have. -/
theorem map_fst_of_mapM_keyed? {members : List (Contents × Json)} {named : List (String × Json)}
    (found : members.mapM keyed? = some named) :
    named.map Prod.fst = members.filterMap Prod.fst := by
  have pairs := Success.mapM_eq_some_iff.mp found
  clear found
  induction pairs with
  | nil => rfl
  | @cons member entry _ _ head _ ih =>
    obtain ⟨text, isText, rfl⟩ := Option.map_eq_some_iff.mp head
    rw [List.map_cons, List.filterMap_cons, isText, ih]

/-- The members of a record are read as they are written. -/
theorem members?_record (members : List (String × Json)) :
    (record members).members? = some members := mapM_keyed? members

/-- A record that has only known members, and each of them once, is read as it stands. -/
theorem fields?_record (names keys : List String) (members : List (String × Json))
    (ordered : (members.map Prod.fst).Sublist keys) (known : ∀ key ∈ keys, key ∈ names)
    (distinct : keys.Nodup) : fields? names (record members) = some members := by
  have all : members.filter (fun member => names.contains member.1) = members := by
    rw [List.filter_eq_self]
    intro member inside
    exact List.contains_iff_mem.mpr (known _ (ordered.subset (List.mem_map_of_mem inside)))
  simp only [fields?, record, mapM_keyed?, Option.bind_eq_bind, Option.bind_some, all]
  rw [if_pos (ordered.nodup distinct)]

theorem lookup_of_keys {members : Fields} {keys : List String} (name : String)
    (ordered : (members.map Prod.fst).Sublist keys) (other : name ∉ keys) :
    members.lookup name = none := by
  rw [List.lookup_eq_none_iff]
  intro member inside
  rw [bne_iff_ne]
  rintro rfl
  exact other (ordered.subset (List.mem_map_of_mem inside))

/-- A field that is read is read from something. -/
theorem exists_of_required? {α : Type} {fields : Fields} {name : String} {read : Json → Option α}
    {value : α} (found : fields.required? name read = some value) :
    ∃ json, read json = some value := by
  obtain ⟨json, -, read⟩ := Option.bind_eq_some_iff.mp found
  exact ⟨json, read⟩

/-- A field that may be absent is read from something, if its default value can be. -/
theorem exists_of_optional? {α : Type} {fields : Fields} {name : String} {read : Json → Option α}
    {default value : α} {json : Json} (readDefault : read json = some default)
    (found : fields.optional? name read default = some value) :
    ∃ json, read json = some value := by
  unfold Fields.optional? at found
  split at found
  · cases found
    exact ⟨json, readDefault⟩
  · exact ⟨_, found⟩

/-- A field that may be absent or null is read from something. -/
theorem exists_of_nullable? {α : Type} {fields : Fields} {name : String} {read : Json → Option α}
    {value : Option α} (found : fields.nullable? name read = some value) :
    ∃ json, Json.nullable? read json = some value := by
  have absent : Json.nullable? read .null = some none := rfl
  exact exists_of_optional? absent found

/-- The items of a list are read from something. -/
theorem exists_of_mem_items? {α : Type} {read : Json → Option α} {json : Json} {values : List α}
    (found : items? read json = some values) {value : α} (member : value ∈ values) :
    ∃ item, read item = some value := by
  unfold items? at found
  split at found
  · obtain ⟨item, -, readItem⟩ :=
      Success.exists_of_mem_right (Success.mapM_eq_some_iff.mp found) member
    exact ⟨item, readItem⟩
  · cases found

theorem read_of_nullable? {α : Type} {read : Json → Option α} {json : Json} {value : α}
    (found : nullable? read json = some (some value)) : read json = some value := by
  unfold nullable? at found
  split at found
  · cases found
  · simpa using found

/-- A value that is read is there, if nothing is read from `null`. -/
theorem nullable?_of_read {α : Type} {read : Json → Option α} (absent : read .null = none)
    {json : Json} {value : α} (found : read json = some value) :
    nullable? read json = some (some value) := by
  unfold nullable?
  split
  · rw [absent] at found
    cases found
  · rw [found]
    rfl

theorem alternative?_record (name : String) (value : Json) :
    (record [(name, value)]).alternative? = some (name, some value) := rfl

theorem text?_text (value : String) : (text value).text? = some value := rfl

theorem nullable?_text (name : Option String) :
    nullable? text? (ofOption (name.map Json.text)) = some name := by
  cases name <;> rfl

end Json

namespace Document

/-! ### Documentation -/

theorem readDocs?_toJson (docs : Docs) : readDocs? docs.toJson = some docs := by
  have fields : Json.fields? ["contents"] docs.toJson
      = some [("contents", .ofOption (docs.contents.map Json.text))] :=
    Json.fields?_record _ ["contents"] _ (by simp) (by simp) (by simp)
  simp [readDocs?, fields, Fields.nullable?, Fields.optional?, Json.nullable?_text]

theorem keys_docsMembers (docs : Docs) : (docs.members.map Prod.fst).Sublist ["docs"] := by
  unfold Docs.members
  split <;> simp

/-- Documentation is found among other members. -/
theorem docsOf?_append {before after : Fields} (docs : Docs)
    (absentBefore : before.lookup "docs" = none) (absentAfter : after.lookup "docs" = none) :
    docsOf? (before ++ docs.members ++ after) = some docs := by
  unfold docsOf? Fields.optional?
  rw [List.lookup_append, List.lookup_append, absentBefore, absentAfter]
  obtain ⟨contents⟩ := docs
  cases contents with
  | none => rfl
  | some contents => exact readDocs?_toJson ⟨some contents⟩

/-! ### Stability -/

end Document

/-- The versions of a mark can be read. -/
def Stability.IsNormal : Stability → Prop
  | .stable since deprecated =>
    since.IsNormal ∧ ∀ version, deprecated = some version → version.IsNormal
  | .unstable _ deprecated => ∀ version, deprecated = some version → version.IsNormal
  | .unknown => True

namespace Document

theorem isNormal_of_readVersion? {json : Json} {version : Version}
    (read : readVersion? json = some version) : version.IsNormal := by
  obtain ⟨text, -, parsed⟩ := Option.bind_eq_some_iff.mp read
  exact Version.isNormal_of_parseChars? parsed

theorem isNormal_of_nullable? {json : Json} {deprecated : Option Version}
    (read : Json.nullable? readVersion? json = some deprecated) :
    ∀ version, deprecated = some version → version.IsNormal := by
  rintro version rfl
  exact isNormal_of_readVersion? (Json.read_of_nullable? read)

theorem isNormal_of_readStability? {json : Json} {stability : Stability}
    (read : readStability? json = some stability) : stability.IsNormal := by
  simp only [readStability?, Option.bind_eq_bind, Option.bind_eq_some_iff] at read
  obtain ⟨⟨name, contents⟩, -, read⟩ := read
  split at read
  · simp only [Option.bind_eq_some_iff, Option.pure_def, Option.some.injEq] at read
    obtain ⟨_, -, _, isSince, _, isDeprecated, rfl⟩ := read
    obtain ⟨_, readSince⟩ := Json.exists_of_required? isSince
    obtain ⟨_, readDeprecated⟩ := Json.exists_of_nullable? isDeprecated
    exact ⟨isNormal_of_readVersion? readSince, isNormal_of_nullable? readDeprecated⟩
  · simp only [Option.bind_eq_some_iff, Option.pure_def, Option.some.injEq] at read
    obtain ⟨_, -, _, -, _, isDeprecated, rfl⟩ := read
    obtain ⟨_, readDeprecated⟩ := Json.exists_of_nullable? isDeprecated
    exact isNormal_of_nullable? readDeprecated
  · split at read
    · cases read
      trivial
    · cases read
  · cases read

theorem isNormal_of_stabilityOf? {fields : Fields} {stability : Stability}
    (found : stabilityOf? fields = some stability) : stability.IsNormal := by
  have readDefault : readStability? (.text "unknown") = some .unknown := rfl
  obtain ⟨_, read⟩ := Json.exists_of_optional? readDefault found
  exact isNormal_of_readStability? read

theorem readVersion?_text {version : Version} (normal : version.IsNormal) :
    readVersion? (.text version.text) = some version := by
  rw [readVersion?, Json.text, Json.text?, Option.bind_some, Version.parse?_text normal]

theorem nullable?_deprecatedMembers {deprecated : Option Version} (name : String) (value : Json)
    (other : name ≠ "deprecated")
    (normal : ∀ version, deprecated = some version → version.IsNormal) :
    Fields.nullable? ((name, value) :: Stability.deprecatedMembers deprecated) "deprecated"
      readVersion? = some deprecated := by
  have differ : ("deprecated" == name) = false := by simpa using Ne.symm other
  cases deprecated with
  | none =>
    simp [Stability.deprecatedMembers, Fields.nullable?, Fields.optional?, List.lookup_cons, differ]
  | some version =>
    have read : Json.nullable? readVersion? (.text version.text) = some (some version) :=
      Json.nullable?_of_read rfl (readVersion?_text (normal version rfl))
    simp [Stability.deprecatedMembers, Fields.nullable?, Fields.optional?, List.lookup_cons, differ,
      read]

theorem fields?_deprecatedMembers (name : String) (other : name ≠ "deprecated") (value : Json)
    (deprecated : Option Version) :
    Json.fields? [name, "deprecated"]
        (.record ((name, value) :: Stability.deprecatedMembers deprecated))
      = some ((name, value) :: Stability.deprecatedMembers deprecated) := by
  refine Json.fields?_record _ [name, "deprecated"] _ ?_ (fun _ inside => inside) ?_
  · cases deprecated <;> simp [Stability.deprecatedMembers]
  · simpa using other

/-- A normal mark of stability is read back. -/
theorem readStability?_toJson {stability : Stability} (normal : stability.IsNormal) :
    readStability? stability.toJson = some stability := by
  cases stability with
  | unknown => rfl
  | stable since deprecated =>
    have fields := fields?_deprecatedMembers "since" (by decide) (.text since.text)
      deprecated
    have isSince : Fields.required? (("since", .text since.text)
        :: Stability.deprecatedMembers deprecated) "since" readVersion? = some since := by
      rw [Fields.required?, List.lookup_cons_self, Option.bind_some, readVersion?_text normal.1]
    have isDeprecated := nullable?_deprecatedMembers "since" (.text since.text) (by decide) normal.2
    simp only [readStability?, Stability.toJson, Json.alternative?_record, Option.bind_eq_bind,
      Option.bind_some, fields, isSince, isDeprecated, Option.pure_def]
  | unstable feature deprecated =>
    have fields := fields?_deprecatedMembers "feature" (by decide) (.text feature)
      deprecated
    have isFeature : Fields.required? (("feature", .text feature)
        :: Stability.deprecatedMembers deprecated) "feature" Json.text? = some feature := by
      rw [Fields.required?, List.lookup_cons_self]
      rfl
    have isDeprecated := nullable?_deprecatedMembers "feature" (.text feature) (by decide) normal
    simp only [readStability?, Stability.toJson, Json.alternative?_record, Option.bind_eq_bind,
      Option.bind_some, fields, isFeature, isDeprecated, Option.pure_def]

theorem keys_stabilityMembers (stability : Stability) :
    (stability.members.map Prod.fst).Sublist ["stability"] := by
  unfold Stability.members
  split <;> simp

/-- A normal mark of stability is found among other members. -/
theorem stabilityOf?_append {before after : Fields} {stability : Stability}
    (normal : stability.IsNormal) (absentBefore : before.lookup "stability" = none)
    (absentAfter : after.lookup "stability" = none) :
    stabilityOf? (before ++ stability.members ++ after) = some stability := by
  unfold stabilityOf? Fields.optional?
  rw [List.lookup_append, List.lookup_append, absentBefore, absentAfter]
  cases stability with
  | unknown => rfl
  | stable since deprecated => exact readStability?_toJson normal
  | unstable feature deprecated => exact readStability?_toJson normal

/-! ### Annotated records -/

/-- What is read in a record that has documentation among its members. -/
theorem read_documented (json : Json) (names : List String) (before : Fields) (docs : Docs)
    (after : Fields) (written : json = .record (before ++ docs.members ++ after))
    (known : ∀ key ∈ before.map Prod.fst ++ ["docs"] ++ after.map Prod.fst, key ∈ names)
    (distinct : (before.map Prod.fst ++ ["docs"] ++ after.map Prod.fst).Nodup) :
    ∃ fields, json.fields? names = some fields ∧ docsOf? fields = some docs
      ∧ ∀ name, name ≠ "docs" → fields.lookup name = (before ++ after).lookup name := by
  subst written
  have ordered : ((before ++ docs.members ++ after).map Prod.fst).Sublist
      (before.map Prod.fst ++ ["docs"] ++ after.map Prod.fst) := by
    rw [List.map_append, List.map_append]
    exact ((List.Sublist.refl _).append (keys_docsMembers docs)).append (List.Sublist.refl _)
  have absent : "docs" ∉ before.map Prod.fst ∧ "docs" ∉ after.map Prod.fst := by
    simp only [List.nodup_append, List.mem_append, List.mem_singleton] at distinct
    refine ⟨fun inside => ?_, fun inside => ?_⟩
    · exact distinct.1.2.2 _ inside _ rfl rfl
    · exact distinct.2.2 _ (Or.inr rfl) _ inside rfl
  refine ⟨_, Json.fields?_record _ _ _ ordered known distinct, ?_, ?_⟩
  · exact docsOf?_append docs (Json.lookup_of_keys _ (List.Sublist.refl _) absent.1)
      (Json.lookup_of_keys _ (List.Sublist.refl _) absent.2)
  · intro name other
    have apart := Json.lookup_of_keys name (keys_docsMembers docs) (by simpa using other)
    rw [List.lookup_append, List.lookup_append, apart, Option.or_none, List.lookup_append]

/-- What is read in a record that has documentation and a mark of stability among its members. -/
theorem read_annotated (json : Json) (names : List String) (before : Fields) (docs : Docs)
    (after : Fields) {stability : Stability} (normal : stability.IsNormal)
    (written : json = .record (before ++ docs.members ++ stability.members ++ after))
    (known : ∀ key ∈ before.map Prod.fst ++ ["docs", "stability"] ++ after.map Prod.fst,
      key ∈ names)
    (distinct : (before.map Prod.fst ++ ["docs", "stability"] ++ after.map Prod.fst).Nodup) :
    ∃ fields, json.fields? names = some fields ∧ docsOf? fields = some docs
      ∧ stabilityOf? fields = some stability
      ∧ ∀ name, name ≠ "docs" → name ≠ "stability" →
        fields.lookup name = (before ++ after).lookup name := by
  subst written
  have ordered : ((before ++ docs.members ++ stability.members ++ after).map Prod.fst).Sublist
      (before.map Prod.fst ++ ["docs", "stability"] ++ after.map Prod.fst) := by
    have marks := (keys_docsMembers docs).append (keys_stabilityMembers stability)
    rw [List.map_append, List.map_append, List.map_append, List.append_assoc (before.map Prod.fst)]
    exact ((List.Sublist.refl _).append marks).append (List.Sublist.refl _)
  have absent : (∀ mark ∈ ["docs", "stability"], mark ∉ before.map Prod.fst)
      ∧ ∀ mark ∈ ["docs", "stability"], mark ∉ after.map Prod.fst := by
    rw [List.nodup_append, List.nodup_append] at distinct
    refine ⟨fun mark isMark inside => ?_, fun mark isMark inside => ?_⟩
    · exact distinct.1.2.2 _ inside _ isMark rfl
    · exact distinct.2.2 _ (List.mem_append_right _ isMark) _ inside rfl
  have missing {fields : Fields} {mark : String} (apart : mark ∉ fields.map Prod.fst) :
      fields.lookup mark = none := Json.lookup_of_keys _ (List.Sublist.refl _) apart
  have noDocs := Json.lookup_of_keys "docs" (keys_stabilityMembers stability) (by decide)
  have noStability := Json.lookup_of_keys "stability" (keys_docsMembers docs) (by decide)
  refine ⟨_, Json.fields?_record _ _ _ ordered known distinct, ?_, ?_, ?_⟩
  · rw [List.append_assoc]
    refine docsOf?_append docs (missing (absent.1 _ (by simp))) ?_
    rw [List.lookup_append, noDocs, missing (absent.2 _ (by simp)), Option.or_none]
  · refine stabilityOf?_append normal ?_ (missing (absent.2 _ (by simp)))
    rw [List.lookup_append, noStability, missing (absent.1 _ (by simp)), Option.or_none]
  · intro name notDocs notStability
    have first := Json.lookup_of_keys name (keys_docsMembers docs)
      (by simpa using notDocs)
    have second := Json.lookup_of_keys name (keys_stabilityMembers stability)
      (by simpa using notStability)
    rw [List.lookup_append, List.lookup_append, List.lookup_append, first, second, Option.or_none,
      Option.or_none, List.lookup_append]

end Document

end WitGraph
