/-
**Type definitions are denoted and restored.**

`denotes_kind` goes through the kinds of types, each of which is written under a name of its own, and
`denotes_type` adds the owner and the annotations. `restores_kind` and `restores_type` do the same for
what has been read.
-/

import WitGraph.Proofs.Document.Restoring

namespace WitGraph

/-! ### Parts of kinds -/

/-- The field with its reference replaced. -/
def Field.mapM {m : Type → Type} [Monad m] {ρ σ : Type} (ref : ρ → m σ) (field : Field ρ) :
    m (Field σ) := do
  return { name := field.name, type := ← ref field.type, docs := field.docs }

/-- The case with its reference replaced. -/
def Case.mapM {m : Type → Type} [Monad m] {ρ σ : Type} (ref : ρ → m σ) (case : Case ρ) :
    m (Case σ) := do
  return { name := case.name, type := ← Kind.mapOptionM ref case.type, docs := case.docs }

/-- The kind is one that documents have. -/
def Kind.IsWritable {ι ρ : Type} : Kind ι ρ → Prop
  | .pointer _ | .unknown => False
  | _ => True

namespace Document

open Json (Fields)

variable {document rewritten : Document}

/-! ### Labels -/

theorem readLabel?_toJson (label : Label) : readLabel? label.toJson = some label := by
  obtain ⟨fields, isFields, isDocs, others⟩ := read_documented label.toJson
    ["name", "docs"] [("name", .text label.name)] label.docs [] (by simp [Label.toJson]) (by simp)
    (by simp)
  simp [readLabel?, isFields, isDocs, Fields.required?, others, Json.text?_text]

theorem mapM_ok : List.mapM (Except.ok : Label → Except Fault Label) = Except.ok := by
  funext labels
  exact Success.mapM_eq_ok_iff.mpr (List.forall₂_same.mpr fun _ _ => rfl)

/-- Lists of labels are restored, for which nothing has to be linked. -/
theorem restores_labels (name : String) :
    Restores (readList? name readLabel?) Except.ok Except.ok
      fun labels => .record [(name, .array (labels.map Label.toJson))] := by
  have restores := (Restores.of_reads readLabel?_toJson).list name
  rwa [mapM_ok] at restores

theorem denotes_labels (name : String) (labels : List Label) :
    Denotes (readList? name readLabel?) Except.ok (.record [(name, .array (labels.map Label.toJson))])
      labels := by
  have each := Denotes.list name fun (label : Label) (_ : label ∈ labels) =>
    (⟨label, readLabel?_toJson label, rfl⟩ : Denotes readLabel? Except.ok label.toJson label)
  rwa [mapM_ok] at each

/-! ### Kinds -/

theorem denotes_field {field : Field TypeRef}
    (type : Denotes readRef? document.linkRef field.type.toJson field.type) :
    Denotes readField? (Field.mapM document.linkRef) field.toJson field := by
  obtain ⟨name, type_, docs⟩ := field
  obtain ⟨ref, readType, linked⟩ := type
  refine ⟨⟨name, ref, docs⟩, ?_, Success.bind_eq_ok_iff.mpr ⟨type_, linked, rfl⟩⟩
  obtain ⟨fields, isFields, isDocs, others⟩ := read_documented
    (Field.toJson ⟨name, type_, docs⟩) ["name", "type", "docs"]
    [("name", .text name), ("type", type_.toJson)] docs [] (by simp [Field.toJson]) (by simp) (by simp)
  simp [readField?, isFields, isDocs, Fields.required?, others, List.lookup_cons, readType,
    Json.text?_text]

theorem denotes_case {case : Case TypeRef}
    (type : Denotes (Json.nullable? readRef?) (Kind.mapOptionM document.linkRef)
      (TypeRef.optionToJson case.type) case.type) :
    Denotes readCase? (Case.mapM document.linkRef) case.toJson case := by
  obtain ⟨name, payload, docs⟩ := case
  obtain ⟨ref, readType, linked⟩ := type
  refine ⟨⟨name, ref, docs⟩, ?_, Success.bind_eq_ok_iff.mpr ⟨payload, linked, rfl⟩⟩
  obtain ⟨fields, isFields, isDocs, others⟩ := read_documented
    (Case.toJson ⟨name, payload, docs⟩) ["name", "type", "docs"]
    [("name", .text name), ("type", TypeRef.optionToJson payload)] docs [] (by simp [Case.toJson])
    (by simp) (by simp)
  simp [readCase?, isFields, isDocs, Fields.required?, Fields.nullable?, Fields.optional?, others,
    List.lookup_cons, readType, Json.text?_text]

theorem denotes_result {ok err : Option TypeRef}
    (isOk : Denotes (Json.nullable? readRef?) (Kind.mapOptionM document.linkRef)
      (TypeRef.optionToJson ok) ok)
    (isErr : Denotes (Json.nullable? readRef?) (Kind.mapOptionM document.linkRef)
      (TypeRef.optionToJson err) err) :
    Denotes readKind? (Kind.mapM (document.linkId .type) document.linkRef)
      (Kind.toJson (.result ok err)) (.result ok err) := by
  obtain ⟨okRef, readOk, linkedOk⟩ := isOk
  obtain ⟨errRef, readErr, linkedErr⟩ := isErr
  refine ⟨.result okRef errRef, ?_, ?_⟩
  · have fields := Json.fields?_record ["ok", "err"] ["ok", "err"]
      [("ok", TypeRef.optionToJson ok), ("err", TypeRef.optionToJson err)]
      (List.Sublist.refl _) (by simp) (by simp)
    simp [readKind?, Kind.toJson, Json.alternative?_record, readResult?, fields, Fields.nullable?,
      Fields.optional?, List.lookup_cons, readOk, readErr]
  · exact Success.bind_eq_ok_iff.mpr ⟨ok, linkedOk,
      Success.bind_eq_ok_iff.mpr ⟨err, linkedErr, rfl⟩⟩

/-- **A kind is denoted by what is written of it**, if it is one that documents have. -/
theorem denotes_kind {kind : TypeKind} (writable : kind.IsWritable)
    (addressed : ∀ id, .defined id ∈ kind.mentions → document.Addresses id.item) :
    Denotes readKind? (Kind.mapM (document.linkId .type) document.linkRef) kind.toJson kind := by
  cases kind with
  | pointer target => cases writable
  | unknown => cases writable
  | resource => exact ⟨.resource, rfl, rfl⟩
  | errorContext => exact ⟨.errorContext, rfl, rfl⟩
  | flags labels => exact (denotes_labels "flags" labels).whole rfl fun _ => rfl
  | enum labels => exact (denotes_labels "cases" labels).whole rfl fun _ => rfl
  | own id | borrow id =>
    exact (denotes_id (addressed id (List.mem_singleton_self _))).whole rfl fun _ => rfl
  | option type | list type | synonym type =>
    refine (denotes_ref fun id same => addressed id ?_).whole rfl fun _ => rfl
    exact List.mem_singleton.mpr same.symm
  | future payload | stream payload =>
    refine (denotes_ref? fun id inside => addressed id ?_).whole rfl fun _ => rfl
    exact Option.mem_toList.mpr inside
  | result ok err =>
    refine denotes_result (denotes_ref? fun id inside => addressed id ?_)
      (denotes_ref? fun id inside => addressed id ?_)
    · exact List.mem_append_left _ (Option.mem_toList.mpr inside)
    · exact List.mem_append_right _ (Option.mem_toList.mpr inside)
  | tuple types =>
    refine (Denotes.list "types" fun type inside => ?_).whole rfl fun _ => rfl
    exact denotes_ref fun id same => addressed id (same ▸ inside)
  | record fields =>
    refine (Denotes.list "fields" fun field inside => denotes_field ?_).whole rfl fun _ => rfl
    exact denotes_ref fun id same => addressed id (List.mem_map.mpr ⟨field, inside, same⟩)
  | variant cases =>
    refine (Denotes.list "cases" fun case inside => denotes_case ?_).whole rfl fun _ => rfl
    exact denotes_ref? fun id payload => addressed id (List.mem_filterMap.mpr ⟨case, inside, payload⟩)

/-! ### Type definitions -/

theorem denotes_owner_of_present {owner : Owner}
    (present : Denotes readOwner? (document.linkOwner ∘ some) owner.toJson owner) :
    Denotes (Json.nullable? readOwner?) document.linkOwner owner.toJson owner := by
  obtain ⟨record, readOwner, linked⟩ := present
  exact ⟨some record, Json.nullable?_of_read rfl readOwner, linked⟩

theorem denotes_owner {owner : Owner}
    (addressed : ∀ item, owner.item? = some item → document.Addresses item) :
    Denotes (Json.nullable? readOwner?) document.linkOwner owner.toJson owner := by
  cases owner with
  | none => exact ⟨none, rfl, rfl⟩
  | world id | interface id =>
    exact denotes_owner_of_present ((denotes_id (addressed id.item rfl)).whole rfl fun _ => rfl)

/-- A type definition is denoted if its parts are. -/
theorem denotes_type {type : TypeDef}
    (kind : Denotes readKind? (Kind.mapM (document.linkId .type) document.linkRef) type.kind.toJson
      type.kind)
    (owner : Denotes (Json.nullable? readOwner?) document.linkOwner type.owner.toJson type.owner)
    (normal : type.stability.IsNormal) :
    Denotes readType? document.linkType type.toJson type := by
  obtain ⟨name, kindValue, ownerValue, docs, stability⟩ := type
  obtain ⟨kindRecord, readKind, linkedKind⟩ := kind
  obtain ⟨ownerRecord, readOwner, linkedOwner⟩ := owner
  refine ⟨⟨name, kindRecord, ownerRecord, docs, stability⟩, ?_, ?_⟩
  · obtain ⟨fields, isFields, isDocs, isMark, others⟩ :=
      read_annotated (TypeDef.toJson ⟨name, kindValue, ownerValue, docs, stability⟩)
        ["name", "kind", "owner", "docs", "stability"]
        [("name", .ofOption (name.map Json.text)), ("kind", kindValue.toJson),
          ("owner", ownerValue.toJson)] docs [] normal (by simp [TypeDef.toJson]) (by simp) (by simp)
    simp [readType?, isFields, isDocs, isMark, Fields.required?, Fields.nullable?,
      Fields.optional?, others, List.lookup_cons, readKind, readOwner, Json.nullable?_text]
  · exact Success.bind_eq_ok_iff.mpr ⟨ownerValue, linkedOwner,
      Success.bind_eq_ok_iff.mpr ⟨kindValue, linkedKind, rfl⟩⟩

/-! ### What has been read -/

theorem isWritable_of_readKind? {json : Json} {kind : Kind Nat Ref}
    (found : readKind? json = some kind) : kind.IsWritable := by
  simp only [readKind?, Option.bind_eq_bind, Option.bind_eq_some_iff, Option.pure_def] at found
  obtain ⟨⟨name, contents⟩, -, found⟩ := found
  split at found
  case h_2 | h_13 | h_14 =>
    split at found <;> cases found
    trivial
  case h_3 =>
    simp only [readHandle?, Option.bind_eq_bind, Option.bind_eq_some_iff, Option.pure_def] at found
    obtain ⟨⟨name, contents⟩, -, found⟩ := found
    split at found
    · obtain ⟨_, -, ⟨⟩⟩ := Option.bind_eq_some_iff.mp found
      trivial
    · obtain ⟨_, -, ⟨⟩⟩ := Option.bind_eq_some_iff.mp found
      trivial
    · cases found
  case h_9 =>
    simp only [readResult?, Option.bind_eq_bind, Option.bind_eq_some_iff, Option.pure_def,
      Option.some.injEq] at found
    obtain ⟨_, -, _, -, _, -, rfl⟩ := found
    trivial
  case h_16 => cases found
  all_goals
    obtain ⟨_, -, ⟨⟩⟩ := Option.bind_eq_some_iff.mp found
    trivial

theorem isWritable_of_mapM {ε ι ρ : Type} {mapId : ι → Except ε TypeId} {ref : ρ → Except ε TypeRef}
    {kind : Kind ι ρ} {linked : TypeKind} (writable : kind.IsWritable)
    (isLinked : kind.mapM mapId ref = .ok linked) : linked.IsWritable := by
  cases kind with
  | pointer _ | unknown => cases writable
  | resource | flags _ | enum _ | errorContext =>
    cases isLinked
    trivial
  | result ok err =>
    obtain ⟨_, -, rest⟩ := Success.bind_eq_ok_iff.mp isLinked
    obtain ⟨_, -, rfl⟩ := Success.bind_return_eq_ok_iff.mp rest
    trivial
  | _ =>
    obtain ⟨_, -, rfl⟩ := Success.bind_return_eq_ok_iff.mp isLinked
    trivial

variable (sameSize : ∀ arena, rewritten.size arena = document.size arena)
include sameSize

theorem restores_field :
    Restores readField? (Field.mapM document.linkRef) (Field.mapM rewritten.linkRef)
      Field.toJson := by
  intro json record field found linked
  simp only [readField?, Option.bind_eq_bind, Option.bind_eq_some_iff, Option.pure_def,
    Option.some.injEq] at found
  obtain ⟨_, -, name, -, ref, isRef, docs, -, rfl⟩ := found
  obtain ⟨type, linkedRef, rfl⟩ := Success.bind_return_eq_ok_iff.mp linked
  obtain ⟨_, readRef⟩ := Json.exists_of_required? isRef
  exact denotes_field (restores_ref sameSize readRef linkedRef)

theorem restores_case :
    Restores readCase? (Case.mapM document.linkRef) (Case.mapM rewritten.linkRef) Case.toJson := by
  intro json record case found linked
  simp only [readCase?, Option.bind_eq_bind, Option.bind_eq_some_iff, Option.pure_def,
    Option.some.injEq] at found
  obtain ⟨_, -, name, -, ref, isRef, docs, -, rfl⟩ := found
  obtain ⟨type, linkedRef, rfl⟩ := Success.bind_return_eq_ok_iff.mp linked
  obtain ⟨_, readRef⟩ := Json.exists_of_nullable? isRef
  exact denotes_case (restores_ref? sameSize readRef linkedRef)

theorem restores_handle {json : Json} {record : Kind Nat Ref} {kind : TypeKind}
    (found : readHandle? json = some record)
    (linked : record.mapM (document.linkId .type) document.linkRef = .ok kind) :
    ∃ again, readKind? kind.toJson = some again
      ∧ again.mapM (rewritten.linkId .type) rewritten.linkRef = .ok kind := by
  simp only [readHandle?, Option.bind_eq_bind, Option.bind_eq_some_iff, Option.pure_def] at found
  obtain ⟨⟨name, contents⟩, -, found⟩ := found
  split at found
  · exact (restores_id sameSize .type).whole
      (fun _ => rfl) (fun _ => rfl) (fun _ => rfl) found linked
  · exact (restores_id sameSize .type).whole
      (fun _ => rfl) (fun _ => rfl) (fun _ => rfl) found linked
  · cases found

theorem restores_result {json : Json} {record : Kind Nat Ref} {kind : TypeKind}
    (found : readResult? json = some record)
    (linked : record.mapM (document.linkId .type) document.linkRef = .ok kind) :
    ∃ again, readKind? kind.toJson = some again
      ∧ again.mapM (rewritten.linkId .type) rewritten.linkRef = .ok kind := by
  simp only [readResult?, Option.bind_eq_bind, Option.bind_eq_some_iff, Option.pure_def,
    Option.some.injEq] at found
  obtain ⟨_, -, ok, isOk, err, isErr, rfl⟩ := found
  obtain ⟨okType, linkedOk, rest⟩ := Success.bind_eq_ok_iff.mp linked
  obtain ⟨errType, linkedErr, rfl⟩ := Success.bind_return_eq_ok_iff.mp rest
  obtain ⟨_, readOk⟩ := Json.exists_of_nullable? isOk
  obtain ⟨_, readErr⟩ := Json.exists_of_nullable? isErr
  exact denotes_result (restores_ref? sameSize readOk linkedOk)
    (restores_ref? sameSize readErr linkedErr)

theorem restores_kind :
    Restores readKind? (Kind.mapM (document.linkId .type) document.linkRef)
      (Kind.mapM (rewritten.linkId .type) rewritten.linkRef) Kind.toJson := by
  intro json record kind found linked
  simp only [readKind?, Option.bind_eq_bind, Option.bind_eq_some_iff, Option.pure_def] at found
  obtain ⟨⟨name, contents⟩, -, found⟩ := found
  -- one case for each name that `readKind?` knows, in its order
  split at found
  · exact ((restores_field sameSize).list "fields").whole
      (fun _ => rfl) (fun _ => rfl) (fun _ => rfl) found linked
  · split at found
    · cases found
      cases linked
      exact ⟨.resource, rfl, rfl⟩
    · cases found
  · exact restores_handle sameSize found linked
  · exact (restores_labels "flags").whole
      (fun labels => show readKind? (Kind.toJson (.flags labels)) = _ from rfl)
      (fun _ => rfl) (fun _ => rfl) found linked
  · exact ((restores_ref sameSize).list "types").whole
      (fun _ => rfl) (fun _ => rfl) (fun _ => rfl) found linked
  · exact ((restores_case sameSize).list "cases").whole
      (fun _ => rfl) (fun _ => rfl) (fun _ => rfl) found linked
  · exact (restores_labels "cases").whole
      (fun labels => show readKind? (Kind.toJson (.enum labels)) = _ from rfl)
      (fun _ => rfl) (fun _ => rfl) found linked
  · exact (restores_ref sameSize).whole (fun _ => rfl) (fun _ => rfl) (fun _ => rfl) found linked
  · exact restores_result sameSize found linked
  · exact (restores_ref sameSize).whole (fun _ => rfl) (fun _ => rfl) (fun _ => rfl) found linked
  · exact (restores_ref? sameSize).whole (fun _ => rfl) (fun _ => rfl) (fun _ => rfl) found linked
  · exact (restores_ref? sameSize).whole (fun _ => rfl) (fun _ => rfl) (fun _ => rfl) found linked
  · split at found
    · cases found
      cases linked
      exact ⟨.errorContext, rfl, rfl⟩
    · cases found
  · split at found
    · cases found
      cases linked
      exact ⟨.errorContext, rfl, rfl⟩
    · cases found
  · exact (restores_ref sameSize).whole (fun _ => rfl) (fun _ => rfl) (fun _ => rfl) found linked
  · cases found

theorem restores_owner :
    Restores (Json.nullable? readOwner?) document.linkOwner rewritten.linkOwner Owner.toJson := by
  intro json record owner found linked
  cases record with
  | none =>
    cases linked
    exact ⟨none, rfl, rfl⟩
  | some record =>
    have linked : (document.linkOwner ∘ some) record = .ok owner := linked
    refine denotes_owner_of_present ?_
    have read := Json.read_of_nullable? found
    simp only [readOwner?, Option.bind_eq_bind, Option.bind_eq_some_iff, Option.pure_def] at read
    obtain ⟨⟨name, contents⟩, -, read⟩ := read
    split at read
    · exact (restores_id sameSize .world).whole
        (fun _ => rfl) (fun _ => rfl) (fun _ => rfl) read linked
    · exact (restores_id sameSize .interface).whole
        (fun _ => rfl) (fun _ => rfl) (fun _ => rfl) read linked
    · cases read

theorem restores_type :
    Restores readType? document.linkType rewritten.linkType TypeDef.toJson := by
  intro json record type found linked
  simp only [readType?, Option.bind_eq_bind, Option.bind_eq_some_iff, Option.pure_def,
    Option.some.injEq] at found
  obtain ⟨_, -, name, -, kind, isKind, owner, isOwner, docs, -, stability, isStability, rfl⟩ := found
  obtain ⟨linkedOwner, ownerLinks, rest⟩ := Success.bind_eq_ok_iff.mp linked
  obtain ⟨linkedKind, kindLinks, rfl⟩ := Success.bind_return_eq_ok_iff.mp rest
  obtain ⟨_, readKind⟩ := Json.exists_of_required? isKind
  obtain ⟨_, readOwner⟩ := Json.exists_of_nullable? isOwner
  exact denotes_type (restores_kind sameSize readKind kindLinks)
    (restores_owner sameSize readOwner ownerLinks) (isNormal_of_stabilityOf? isStability)

end Document

end WitGraph
