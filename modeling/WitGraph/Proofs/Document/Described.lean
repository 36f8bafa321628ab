/-
**What records describe.**

A record of a document describes an entity if it says the same of it, each position in the record
being the id at that position. Nothing else is asked of a position: it may lead forwards, backwards or
in a circle. The relations `Describes` say this for each sort of record, part by part, and the
theorems `describes_of_link…` say that a record that is linked describes what it is linked to.

The keys of imports and exports are described by their texts; which texts are keys of interfaces is
said by `keyOf_eq_interface_iff`.
-/

import WitGraph.Proofs.Document.Bounds
import WitGraph.Proofs.Document.Elements

namespace WitGraph

/-! ### Types -/

/-- A position stands for the definition there, and a name for the primitive type with that name. -/
inductive Document.Ref.Describes : Document.Ref → TypeRef → Prop
  | index (index : Nat) : Describes (.index index) (.defined ⟨index⟩)
  | name {name : String} {type : Primitive} (named : Primitive.ofName? name = some type) :
    Describes (.name name) (.primitive type)

open Document

/-- The parameter has the name and the type that the record says. -/
structure Param.Describes (record : Param Ref) (param : Param TypeRef) : Prop where
  name : param.name = record.name
  type : record.type.Describes param.type

/-- The field is the one that the record says. -/
structure Field.Describes (record : Field Ref) (field : Field TypeRef) : Prop where
  name : field.name = record.name
  type : record.type.Describes field.type
  docs : field.docs = record.docs

/-- The case is the one that the record says, with a payload exactly if the record has one. -/
structure Case.Describes (record : Case Ref) (case : Case TypeRef) : Prop where
  name : case.name = record.name
  type : Option.Rel Ref.Describes record.type case.type
  docs : case.docs = record.docs

/-- The kind is the one that the record says, with its parts in the same order. -/
inductive Kind.Describes : Kind Nat Ref → TypeKind → Prop
  | record {records : List (Field Ref)} {fields : List (Field TypeRef)}
    (each : List.Forall₂ Field.Describes records fields) : Describes (.record records) (.record fields)
  | resource : Describes .resource .resource
  | own (index : Nat) : Describes (.own index) (.own ⟨index⟩)
  | borrow (index : Nat) : Describes (.borrow index) (.borrow ⟨index⟩)
  | flags (labels : List Label) : Describes (.flags labels) (.flags labels)
  | tuple {refs : List Ref} {types : List TypeRef} (each : List.Forall₂ Ref.Describes refs types) :
    Describes (.tuple refs) (.tuple types)
  | variant {records : List (Case Ref)} {cases : List (Case TypeRef)}
    (each : List.Forall₂ Case.Describes records cases) : Describes (.variant records) (.variant cases)
  | enum (labels : List Label) : Describes (.enum labels) (.enum labels)
  | option {ref : Ref} {type : TypeRef} (payload : ref.Describes type) :
    Describes (.option ref) (.option type)
  | result {okRef errRef : Option Ref} {okType errType : Option TypeRef}
    (ok : Option.Rel Ref.Describes okRef okType) (err : Option.Rel Ref.Describes errRef errType) :
    Describes (.result okRef errRef) (.result okType errType)
  | list {ref : Ref} {type : TypeRef} (element : ref.Describes type) :
    Describes (.list ref) (.list type)
  | future {ref : Option Ref} {type : Option TypeRef} (payload : Option.Rel Ref.Describes ref type) :
    Describes (.future ref) (.future type)
  | stream {ref : Option Ref} {type : Option TypeRef} (payload : Option.Rel Ref.Describes ref type) :
    Describes (.stream ref) (.stream type)
  | errorContext : Describes .errorContext .errorContext
  | pointer {ref : Ref} {type : TypeRef} (target : ref.Describes type) :
    Describes (.pointer ref) (.pointer type)
  | synonym {ref : Ref} {type : TypeRef} (target : ref.Describes type) :
    Describes (.synonym ref) (.synonym type)
  | unknown : Describes .unknown .unknown

/-- The owner is the one at the position that the record says. -/
inductive Owner.Describes : Option OwnerRecord → Owner → Prop
  | world (index : Nat) : Describes (some (.world index)) (.world ⟨index⟩)
  | interface (index : Nat) : Describes (some (.interface index)) (.interface ⟨index⟩)
  | none : Describes Option.none .none

/-! ### Functions -/

/-- The function belongs to the resource at the position that the record says. -/
inductive FunctionKind.Describes : FunctionKind Nat → FunctionKind TypeId → Prop
  | freestanding : Describes .freestanding .freestanding
  | method (index : Nat) : Describes (.method index) (.method ⟨index⟩)
  | static (index : Nat) : Describes (.static index) (.static ⟨index⟩)
  | constructor (index : Nat) : Describes (.constructor index) (.constructor ⟨index⟩)

/-- A record says what is returned as one result or as a list of them, or not at all. A list of one
result without a name is that result. -/
inductive Results.Describes : Option Ref → Option (List (Param Ref)) → Results → Prop
  | nothing : Describes none none (.named [])
  | one {ref : Ref} {type : TypeRef} (described : ref.Describes type) :
    Describes (some ref) none (.anonymous type)
  | unnamed {ref : Ref} {type : TypeRef} (described : ref.Describes type) :
    Describes none (some [⟨"", ref⟩]) (.anonymous type)
  | named {records : List (Param Ref)} {params : List (Param TypeRef)}
    (each : List.Forall₂ Param.Describes records params)
    (isList : ∀ type, params ≠ [⟨"", type⟩]) : Describes none (some records) (.named params)

namespace Document

/-- The function is the one that the record says, with its parameters in the same order. -/
structure FunctionRecord.Describes (record : FunctionRecord) (function : Function) : Prop where
  name : function.name = record.name
  kind : record.kind.Describes function.kind
  params : List.Forall₂ Param.Describes record.params function.params
  results : Results.Describes record.result record.results function.results
  docs : function.docs = record.docs
  stability : function.stability = record.stability

/-! ### Entities -/

/-- The definition is the one that the record says. -/
structure TypeRecord.Describes (record : TypeRecord) (type : TypeDef) : Prop where
  name : type.name = record.name
  kind : record.kind.Describes type.kind
  owner : Owner.Describes record.owner type.owner
  docs : type.docs = record.docs
  stability : type.stability = record.stability

/-- The ids stand under the same names in the same order as the positions. -/
def IndicesDescribe {arena : Arena} (positions : OrderedMap String Nat)
    (ids : OrderedMap String (Id arena)) : Prop :=
  ids.entries = positions.entries.map fun entry => (entry.1, ⟨entry.2⟩)

/-- The interface is the one that the record says, with the same names in the same order. -/
structure InterfaceRecord.Describes (record : InterfaceRecord) (interface : Interface) : Prop where
  name : interface.name = record.name
  types : IndicesDescribe record.types interface.types
  functions : List.Forall₂ (fun entry function => function.1 = entry.1 ∧ entry.2.Describes function.2)
    record.functions.entries interface.functions.entries
  package : interface.package = record.package.map Id.mk
  docs : interface.docs = record.docs
  stability : interface.stability = record.stability

/-- The import or export is the one that the record says. A primitive type is none. -/
inductive ItemRecord.Describes : ItemRecord → WorldItem → Prop
  | interface (index : Nat) (stability : Stability) :
    Describes (.interface index stability) (.interface ⟨index⟩ stability)
  | function {record : FunctionRecord} {func : Function} (described : record.Describes func) :
    Describes (.function record) (.function func)
  | type (index : Nat) : Describes (.type (.index index)) (.type ⟨index⟩)

/-- The imports or exports are the ones that the records say, under keys with the same texts. -/
def ItemsDescribe (records : OrderedMap String ItemRecord) (items : OrderedMap WorldKey WorldItem) :
    Prop :=
  List.Forall₂ (fun entry item => item.1.text = entry.1 ∧ entry.2.Describes item.2) records.entries
    items.entries

/-- The imports or the exports of a record. -/
def WorldRecord.side (record : WorldRecord) : Side → OrderedMap String ItemRecord
  | .imports => record.imports
  | .exports => record.exports

/-- The world is the one that the record says. -/
structure WorldRecord.Describes (record : WorldRecord) (world : World) : Prop where
  name : world.name = record.name
  sides : ∀ side, ItemsDescribe (record.side side) (world.side side)
  package : world.package = record.package.map Id.mk
  docs : world.docs = record.docs
  stability : world.stability = record.stability

/-- The package is the one that the record says, its name being read from a text. -/
structure PackageRecord.Describes (record : PackageRecord) (package : Package) : Prop where
  name : Ident.parse record.name = .ok package.name
  docs : package.docs = record.docs
  interfaces : IndicesDescribe record.interfaces package.interfaces
  worlds : IndicesDescribe record.worlds package.worlds

variable {document : Document}

/-! ### What references are linked to -/

/-- What is made of a position that is linked is made of the id at this position. -/
theorem eq_of_linkId {α : Type} {arena : Arena} {index : Nat} (make : Id arena → α) {value : α}
    (linked : (document.linkId arena index >>= fun id => pure (make id)) = .ok value) :
    value = make ⟨index⟩ := by
  obtain ⟨id, isId, rfl⟩ := Success.bind_return_eq_ok_iff.mp linked
  obtain ⟨-, rfl⟩ := linkId_eq_ok_iff.mp isId
  rfl

theorem describes_of_linkRef {ref : Ref} {type : TypeRef} (linked : document.linkRef ref = .ok type) :
    ref.Describes type := by
  cases ref with
  | index index =>
    obtain rfl := eq_of_linkId TypeRef.defined linked
    exact .index index
  | name name =>
    cases named : Primitive.ofName? name with
    | none => simp [linkRef, named, fail] at linked
    | some type =>
      simp only [linkRef, named] at linked
      cases linked
      exact .name named

theorem describes_of_linkRef? {ref : Option Ref} {type : Option TypeRef}
    (linked : Kind.mapOptionM document.linkRef ref = .ok type) :
    Option.Rel Ref.Describes ref type := by
  cases ref with
  | none =>
    cases linked
    exact .none
  | some ref =>
    obtain ⟨found, linkedRef, rfl⟩ := Success.bind_return_eq_ok_iff.mp linked
    exact .some (describes_of_linkRef linkedRef)

theorem map_mk_of_linkPackage? {index : Option Nat} {package : Option PackageId}
    (linked : document.linkPackage? index = .ok package) : package = index.map Id.mk := by
  cases index with
  | none =>
    cases linked
    rfl
  | some index =>
    obtain rfl := eq_of_linkId some linked
    rfl

/-! ### What maps are linked to -/

section Maps

variable {α β κ : Type} [DecidableEq κ] {text : κ → String} {key : String → β → κ}
  {link : String → α → Except Fault β}

/-- A map whose keys keep their texts is linked entry by entry. -/
theorem forall₂_of_linkEntries (reads : ∀ name value, text (key name value) = name)
    {records : OrderedMap String α} {values : OrderedMap κ β}
    (linked : linkEntries (linkEntry key link) records = .ok values) :
    List.Forall₂ (fun record entry => entry.1 = key record.1 entry.2
      ∧ link record.1 record.2 = .ok entry.2) records.entries values.entries := by
  obtain ⟨entries, linkedEntries, rfl⟩ := Success.bind_return_eq_ok_iff.mp linked
  have pairs : List.Forall₂ (fun record entry => entry.1 = key record.1 entry.2
      ∧ link record.1 record.2 = .ok entry.2) records.entries entries := by
    refine (Success.mapM_eq_ok_iff.mp linkedEntries).imp fun record entry made => ?_
    obtain ⟨value, linkedValue, rfl⟩ := Success.bind_return_eq_ok_iff.mp made
    exact ⟨rfl, linkedValue⟩
  -- the keys are distinct, because their texts are the keys of the records
  have texts : entries.map (text ∘ Prod.fst) = records.entries.map Prod.fst := by
    refine Success.map_eq_map pairs fun record _ entry pair => ?_
    rw [Function.comp_apply, pair.1, reads]
  have distinct : (entries.map Prod.fst).Nodup := by
    refine List.Nodup.of_map text ?_
    rw [List.map_map, texts]
    exact records.distinct
  rwa [OrderedMap.entries_ofList distinct]

theorem forall₂_of_linkMap {records : OrderedMap String α} {values : OrderedMap String β}
    (linked : linkMap link records = .ok values) :
    List.Forall₂ (fun record entry => entry.1 = record.1 ∧ link record.1 record.2 = .ok entry.2)
      records.entries values.entries := by
  have areEntries : linkEntries (linkEntry (fun name _ => name) link) records = .ok values := linked
  exact forall₂_of_linkEntries (fun _ _ => rfl) areEntries

end Maps

theorem describe_of_linkIndices {arena : Arena} {positions : OrderedMap String Nat}
    {ids : OrderedMap String (Id arena)} (linked : document.linkIndices arena positions = .ok ids) :
    IndicesDescribe positions ids := by
  have same : ids.entries.map id
      = positions.entries.map fun entry => ((entry.1, ⟨entry.2⟩) : String × Id arena) := by
    refine Success.map_eq_map (forall₂_of_linkMap linked) fun entry _ linkedEntry pair => ?_
    obtain ⟨-, isId⟩ := linkId_eq_ok_iff.mp pair.2
    exact Prod.ext pair.1 isId.symm
  rwa [List.map_id] at same

/-! ### What types and functions are linked to -/

theorem describes_of_linkParams {records : List (Param Ref)} {params : List (Param TypeRef)}
    (linked : document.linkParams records = .ok params) :
    List.Forall₂ Param.Describes records params := by
  refine (Success.mapM_eq_ok_iff.mp linked).imp fun record param made => ?_
  obtain ⟨type, linkedType, rfl⟩ := Success.bind_return_eq_ok_iff.mp made
  exact ⟨rfl, describes_of_linkRef linkedType⟩

theorem describes_of_linkKind {record : Kind Nat Ref} {kind : TypeKind}
    (linked : record.mapM (document.linkId .type) document.linkRef = .ok kind) :
    record.Describes kind := by
  cases record with
  | record records =>
    obtain ⟨fields, areFields, rfl⟩ := Success.bind_return_eq_ok_iff.mp linked
    refine .record ((Success.mapM_eq_ok_iff.mp areFields).imp fun record field made => ?_)
    obtain ⟨type, linkedType, rfl⟩ := Success.bind_return_eq_ok_iff.mp made
    exact ⟨rfl, describes_of_linkRef linkedType, rfl⟩
  | variant records =>
    obtain ⟨cases, areCases, rfl⟩ := Success.bind_return_eq_ok_iff.mp linked
    refine .variant ((Success.mapM_eq_ok_iff.mp areCases).imp fun record case made => ?_)
    obtain ⟨type, linkedType, rfl⟩ := Success.bind_return_eq_ok_iff.mp made
    exact ⟨rfl, describes_of_linkRef? linkedType, rfl⟩
  | tuple refs =>
    obtain ⟨types, areTypes, rfl⟩ := Success.bind_return_eq_ok_iff.mp linked
    exact .tuple ((Success.mapM_eq_ok_iff.mp areTypes).imp fun _ _ => describes_of_linkRef)
  | own index =>
    obtain rfl := eq_of_linkId Kind.own linked
    exact .own index
  | borrow index =>
    obtain rfl := eq_of_linkId Kind.borrow linked
    exact .borrow index
  | result ok err =>
    obtain ⟨okType, linkedOk, rest⟩ := Success.bind_eq_ok_iff.mp linked
    obtain ⟨errType, linkedErr, rfl⟩ := Success.bind_return_eq_ok_iff.mp rest
    exact .result (describes_of_linkRef? linkedOk) (describes_of_linkRef? linkedErr)
  | option ref =>
    obtain ⟨type, linkedType, rfl⟩ := Success.bind_return_eq_ok_iff.mp linked
    exact .option (describes_of_linkRef linkedType)
  | list ref =>
    obtain ⟨type, linkedType, rfl⟩ := Success.bind_return_eq_ok_iff.mp linked
    exact .list (describes_of_linkRef linkedType)
  | pointer ref =>
    obtain ⟨type, linkedType, rfl⟩ := Success.bind_return_eq_ok_iff.mp linked
    exact .pointer (describes_of_linkRef linkedType)
  | synonym ref =>
    obtain ⟨type, linkedType, rfl⟩ := Success.bind_return_eq_ok_iff.mp linked
    exact .synonym (describes_of_linkRef linkedType)
  | future ref =>
    obtain ⟨type, linkedType, rfl⟩ := Success.bind_return_eq_ok_iff.mp linked
    exact .future (describes_of_linkRef? linkedType)
  | stream ref =>
    obtain ⟨type, linkedType, rfl⟩ := Success.bind_return_eq_ok_iff.mp linked
    exact .stream (describes_of_linkRef? linkedType)
  | flags labels =>
    cases linked
    exact .flags labels
  | enum labels =>
    cases linked
    exact .enum labels
  | resource =>
    cases linked
    exact .resource
  | errorContext =>
    cases linked
    exact .errorContext
  | unknown =>
    cases linked
    exact .unknown

theorem describes_of_linkOwner {record : Option OwnerRecord} {owner : Owner}
    (linked : document.linkOwner record = .ok owner) : Owner.Describes record owner := by
  rcases record with _ | index | index
  · cases linked
    exact .none
  · obtain rfl := eq_of_linkId Owner.world linked
    exact .world index
  · obtain rfl := eq_of_linkId Owner.interface linked
    exact .interface index

theorem describes_of_linkType {record : TypeRecord} {type : TypeDef}
    (linked : document.linkType record = .ok type) : record.Describes type := by
  obtain ⟨owner, ownerLinks, rest⟩ := Success.bind_eq_ok_iff.mp linked
  obtain ⟨kind, kindLinks, rfl⟩ := Success.bind_return_eq_ok_iff.mp rest
  exact ⟨rfl, describes_of_linkKind kindLinks, describes_of_linkOwner ownerLinks, rfl, rfl⟩

theorem describes_of_linkFunctionKind {record : FunctionKind Nat} {kind : FunctionKind TypeId}
    (linked : document.linkFunctionKind record = .ok kind) : record.Describes kind := by
  cases record with
  | freestanding =>
    cases linked
    exact .freestanding
  | method index =>
    obtain rfl := eq_of_linkId FunctionKind.method linked
    exact .method index
  | static index =>
    obtain rfl := eq_of_linkId FunctionKind.static linked
    exact .static index
  | constructor index =>
    obtain rfl := eq_of_linkId FunctionKind.constructor linked
    exact .constructor index

theorem describes_of_linkResults {result : Option Ref} {records : Option (List (Param Ref))}
    {results : Results} (linked : document.linkResults result records = .ok results) :
    Results.Describes result records results := by
  unfold linkResults at linked
  split at linked
  · cases linked
  · obtain ⟨type, linkedType, rfl⟩ := Success.bind_return_eq_ok_iff.mp linked
    exact .one (describes_of_linkRef linkedType)
  · obtain ⟨params, linkedParams, rfl⟩ := Success.bind_return_eq_ok_iff.mp linked
    have each := describes_of_linkParams linkedParams
    rcases Results.ofList_cases params with ⟨type, rfl, single⟩ | named
    · obtain ⟨⟨name, ref⟩, _, ⟨isName, described⟩, nothing, rfl⟩ :=
        List.forall₂_cons_right_iff.mp each
      cases List.forall₂_nil_right_iff.mp nothing
      cases (isName : "" = name)
      rw [single]
      exact .unnamed described
    · rw [named]
      refine .named each fun type isSingle => ?_
      rw [isSingle] at named
      cases named
  · cases linked
    exact .nothing

theorem describes_of_linkFunction {record : FunctionRecord} {function : Function}
    (linked : document.linkFunction record = .ok function) : record.Describes function := by
  obtain ⟨kind, kindLinks, rest⟩ := Success.bind_eq_ok_iff.mp linked
  obtain ⟨params, paramLinks, rest⟩ := Success.bind_eq_ok_iff.mp rest
  obtain ⟨results, resultLinks, rfl⟩ := Success.bind_return_eq_ok_iff.mp rest
  exact ⟨rfl, describes_of_linkFunctionKind kindLinks, describes_of_linkParams paramLinks,
    describes_of_linkResults resultLinks, rfl, rfl⟩

/-! ### What interfaces, worlds and packages are linked to -/

theorem describes_of_linkInterface {record : InterfaceRecord} {interface : Interface}
    (linked : document.linkInterface record = .ok interface) : record.Describes interface := by
  obtain ⟨types, typeLinks, rest⟩ := Success.bind_eq_ok_iff.mp linked
  obtain ⟨functions, functionLinks, rest⟩ := Success.bind_eq_ok_iff.mp rest
  obtain ⟨package, packageLinks, rfl⟩ := Success.bind_return_eq_ok_iff.mp rest
  refine ⟨rfl, describe_of_linkIndices typeLinks, ?_, map_mk_of_linkPackage? packageLinks, rfl, rfl⟩
  exact (forall₂_of_linkMap functionLinks).imp fun _ _ pair =>
    ⟨pair.1, describes_of_linkFunction (within_eq_ok_iff.mp pair.2)⟩

theorem describes_of_linkItem {record : ItemRecord} {item : WorldItem}
    (linked : document.linkItem record = .ok item) : record.Describes item := by
  rcases record with ⟨index, stability⟩ | record | index | name
  · obtain rfl := eq_of_linkId (fun id => WorldItem.interface id stability) linked
    exact .interface index stability
  · obtain ⟨function, isFunction, rfl⟩ := Success.bind_return_eq_ok_iff.mp linked
    exact .function (describes_of_linkFunction isFunction)
  · obtain rfl := eq_of_linkId WorldItem.type linked
    exact .type index
  · cases linked

/-- The key above an import or export is an interface exactly if this is the interface that is
imported or exported and the text is the one of its key. -/
theorem keyOf_eq_interface_iff {name : String} {item : WorldItem} {id : InterfaceId} :
    keyOf name item = .interface id
      ↔ name = (WorldKey.interface id).text ∧ item.interface? = some id := by
  constructor
  · intro isKey
    have under := interface_of_keyOf (congrArg WorldKey.interface? isKey)
    exact ⟨(text_keyOf name item).symm.trans (congrArg WorldKey.text isKey), under⟩
  · rintro ⟨rfl, under⟩
    cases item with
    | interface other stability =>
      cases under
      rw [keyOf, if_pos rfl]
    | function func => cases under
    | type other => cases under

/-- Imports or exports that are linked have the keys that their texts stand for. -/
theorem forall₂_of_linkItems {records : OrderedMap String ItemRecord}
    {items : OrderedMap WorldKey WorldItem} (linked : document.linkItems records = .ok items) :
    List.Forall₂ (fun record item => item.1 = keyOf record.1 item.2 ∧ record.2.Describes item.2)
      records.entries items.entries := by
  rw [linkItems_eq] at linked
  exact (forall₂_of_linkEntries text_keyOf linked).imp fun _ _ pair =>
    ⟨pair.1, describes_of_linkItem (within_eq_ok_iff.mp pair.2)⟩

theorem describe_of_linkItems {records : OrderedMap String ItemRecord}
    {items : OrderedMap WorldKey WorldItem} (linked : document.linkItems records = .ok items) :
    ItemsDescribe records items := by
  refine (forall₂_of_linkItems linked).imp fun record item pair => ⟨?_, pair.2⟩
  rw [pair.1, text_keyOf]

theorem side_of_linkWorld {record : WorldRecord} {world : World}
    (linked : document.linkWorld record = .ok world) (side : Side) :
    document.linkItems (record.side side) = .ok (world.side side) := by
  obtain ⟨imports, importLinks, rest⟩ := Success.bind_eq_ok_iff.mp linked
  obtain ⟨exports, exportLinks, rest⟩ := Success.bind_eq_ok_iff.mp rest
  obtain ⟨package, -, rfl⟩ := Success.bind_return_eq_ok_iff.mp rest
  cases side with
  | imports => exact within_eq_ok_iff.mp importLinks
  | exports => exact within_eq_ok_iff.mp exportLinks

theorem describes_of_linkWorld {record : WorldRecord} {world : World}
    (linked : document.linkWorld record = .ok world) : record.Describes world := by
  have sides (side : Side) := describe_of_linkItems (side_of_linkWorld linked side)
  obtain ⟨imports, -, rest⟩ := Success.bind_eq_ok_iff.mp linked
  obtain ⟨exports, -, rest⟩ := Success.bind_eq_ok_iff.mp rest
  obtain ⟨package, packageLinks, rfl⟩ := Success.bind_return_eq_ok_iff.mp rest
  exact ⟨rfl, sides, map_mk_of_linkPackage? packageLinks, rfl, rfl⟩

theorem describes_of_linksPackage {record : PackageRecord} {package : Package}
    (linked : document.LinksPackage record package) : record.Describes package := by
  obtain ⟨named, linkedPackage⟩ := linked
  obtain ⟨interfaces, interfaceLinks, rest⟩ := Success.bind_eq_ok_iff.mp linkedPackage
  obtain ⟨worlds, worldLinks, same⟩ := Success.bind_return_eq_ok_iff.mp rest
  rw [← same] at named ⊢
  exact ⟨named, rfl, describe_of_linkIndices interfaceLinks, describe_of_linkIndices worldLinks⟩

end Document

end WitGraph
