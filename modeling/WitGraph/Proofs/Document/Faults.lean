/-
**The faults of records.**

A record may be defective in many ways at once. What can be wrong with it is listed by its `risks`, each
with the path to it: every use of an item at a position or of a type by name, every import or export of a
type by name, and every function that states its result in both ways. Which of the risks are real is said
by `Defect.Occurs`. The theorems `fault?_link…` say of each sort of record that the first real risk is its
fault, and so that there is no fault without one.
-/

import WitGraph.Proofs.Document.Linked

namespace WitGraph

open Success (fault?)

namespace Document

/-! ### What can be wrong -/

/-- The defect is really there. A type of a world that is given by name is always a defect, and so is a
result that is stated in both ways. -/
def Defect.Occurs (document : Document) : Defect → Prop
  | .outOfBounds arena index => document.size arena ≤ index
  | .unknownType name => Primitive.ofName? name = none
  | .primitiveItem _ => True
  | .twoResults => True

instance (document : Document) : DecidablePred (Defect.Occurs document)
  | .outOfBounds arena index => inferInstanceAs (Decidable (document.size arena ≤ index))
  | .unknownType name => inferInstanceAs (Decidable (Primitive.ofName? name = none))
  | .primitiveItem _ => inferInstanceAs (Decidable True)
  | .twoResults => inferInstanceAs (Decidable True)

/-- The defect, found where it is. -/
def Defect.here (defect : Defect) : Fault where
  path := []
  defect := defect

/-- The fault, found within a place. -/
def Fault.within (place : Place) (fault : Fault) : Fault :=
  { fault with path := place :: fault.path }

/-- The first of some faults whose defect is really there. -/
def firstFault (document : Document) (risks : List Fault) : Option Fault :=
  risks.find? fun fault => fault.defect.Occurs document

/-- What can be wrong with a use of a type. -/
def Ref.risk : Ref → Fault
  | .index position => (Defect.outOfBounds .type position).here
  | .name text => (Defect.unknownType text).here

/-- What can be wrong with positions in an arena. -/
def indexRisks (arena : Arena) (indices : List Nat) : List Fault :=
  indices.map fun index => (Defect.outOfBounds arena index).here

end Document

open Document in
/-- The uses of types in a kind, in the order of their declaration. A handle uses its resource. -/
def Kind.refs : Kind Nat Ref → List Ref
  | .record fields => fields.map Field.type
  | .own index | .borrow index => [.index index]
  | .tuple types => types
  | .variant cases => cases.flatMap fun case => case.type.toList
  | .option ref | .list ref | .pointer ref | .synonym ref => [ref]
  | .result ok err => ok.toList ++ err.toList
  | .future payload | .stream payload => payload.toList
  | .resource | .flags _ | .enum _ | .errorContext | .unknown => []

namespace Document

/-- What can be wrong with the owner of a type. -/
def ownerRisks : Option OwnerRecord → List Fault
  | some (.world index) => indexRisks .world [index]
  | some (.interface index) => indexRisks .interface [index]
  | none => []

/-- What can be wrong with a type definition. -/
def TypeRecord.risks (type : TypeRecord) : List Fault :=
  ownerRisks type.owner ++ type.kind.refs.map Ref.risk

/-- What can be wrong with the results of a function. -/
def resultRisks (result : Option Ref) (results : Option (List (Param Ref))) : List Fault :=
  (if result.isSome ∧ results.isSome then [Defect.twoResults.here] else [])
    ++ (result.toList ++ (results.getD []).map Param.type).map Ref.risk

/-- What can be wrong with a function. -/
def FunctionRecord.risks (function : FunctionRecord) : List Fault :=
  indexRisks .type function.kind.resource?.toList ++ (function.params.map Param.type).map Ref.risk
    ++ resultRisks function.result function.results

/-- What can be wrong with an interface. -/
def InterfaceRecord.risks (interface : InterfaceRecord) : List Fault :=
  indexRisks .type interface.types.values
    ++ (interface.functions.entries.flatMap fun entry =>
        entry.2.risks.map (Fault.within (.function entry.1)))
    ++ indexRisks .package interface.package.toList

/-- What can be wrong with an import or export. -/
def ItemRecord.risks : ItemRecord → List Fault
  | .interface index _ => indexRisks .interface [index]
  | .function record => record.risks
  | .type (.index index) => indexRisks .type [index]
  | .type (.name name) => [(Defect.primitiveItem name).here]

/-- What can be wrong with the imports or the exports of a world. -/
def itemsRisks (items : OrderedMap String ItemRecord) : List Fault :=
  items.entries.flatMap fun entry => entry.2.risks.map (Fault.within (.item entry.1))

/-- What can be wrong with a world. -/
def WorldRecord.risks (world : WorldRecord) : List Fault :=
  (itemsRisks world.imports).map (Fault.within .imports)
    ++ (itemsRisks world.exports).map (Fault.within .exports)
    ++ indexRisks .package world.package.toList

/-- What can be wrong with the contents of a package. -/
def PackageRecord.risks (package : PackageRecord) : List Fault :=
  indexRisks .interface package.interfaces.values ++ indexRisks .world package.worlds.values

/-! ### The first fault of a list -/

variable {document : Document}

theorem firstFault_append (early late : List Fault) :
    document.firstFault (early ++ late)
      = (document.firstFault early).or (document.firstFault late) :=
  List.find?_append

theorem firstFault_flatMap {α : Type} (list : List α) (risks : α → List Fault) :
    document.firstFault (list.flatMap risks)
      = list.findSome? fun element => document.firstFault (risks element) :=
  List.find?_flatMap

theorem firstFault_within (place : Place) (risks : List Fault) :
    document.firstFault (risks.map (Fault.within place))
      = (document.firstFault risks).map (Fault.within place) :=
  List.find?_map

theorem firstFault_eq_some {risks : List Fault} {fault : Fault}
    (found : document.firstFault risks = some fault) :
    fault ∈ risks ∧ fault.defect.Occurs document :=
  ⟨List.mem_of_find?_eq_some found, by simpa using List.find?_some found⟩

theorem firstFault_eq_none_iff {risks : List Fault} :
    document.firstFault risks = none ↔ ∀ fault ∈ risks, ¬ fault.defect.Occurs document := by
  simp [firstFault]

theorem firstFault_singleton (defect : Defect) :
    document.firstFault [defect.here] = if defect.Occurs document then some defect.here else none := by
  by_cases occurs : defect.Occurs document <;> simp [firstFault, Defect.here, occurs]

theorem fault?_within {α : Type} (place : Place) (result : Except Fault α) :
    fault? (within place result) = (fault? result).map (Fault.within place) := by
  cases result <;> rfl

/-- The first fault at the elements of a list is the first of all that can be wrong with them. -/
theorem fault?_mapM_eq {α β : Type} {step : α → Except Fault β} {risks : α → List Fault}
    {list : List α} (each : ∀ element, fault? (step element) = document.firstFault (risks element)) :
    fault? (list.mapM step) = document.firstFault (list.flatMap risks) := by
  rw [Success.fault?_mapM, firstFault_flatMap]
  simp only [each]

/-! ### The fault of a record -/

theorem fault?_linkId (arena : Arena) (index : Nat) :
    fault? (document.linkId arena index) = document.firstFault (indexRisks arena [index]) := by
  have single : indexRisks arena [index] = [(Defect.outOfBounds arena index).here] := rfl
  rw [single, firstFault_singleton, linkId]
  by_cases inside : index < document.size arena
  · have fits : ¬ (Defect.outOfBounds arena index).Occurs document := Nat.not_le_of_lt inside
    rw [if_pos inside, if_neg fits]
    rfl
  · have outside : (Defect.outOfBounds arena index).Occurs document := Nat.le_of_not_lt inside
    rw [if_neg inside, if_pos outside]
    rfl

theorem fault?_linkRef (ref : Ref) :
    fault? (document.linkRef ref) = document.firstFault [ref.risk] := by
  cases ref with
  | index index => exact Success.fault?_bind_return.trans (fault?_linkId .type index)
  | name name =>
    have single : [(Ref.name name).risk] = [(Defect.unknownType name).here] := rfl
    rw [single, firstFault_singleton, linkRef]
    cases named : Primitive.ofName? name with
    | none =>
      have unknown : (Defect.unknownType name).Occurs document := named
      rw [if_pos unknown]
      rfl
    | some type =>
      have known : ¬ (Defect.unknownType name).Occurs document := by simp [Defect.Occurs, named]
      rw [if_neg known]
      rfl

theorem fault?_linkRef? (ref : Option Ref) :
    fault? (Kind.mapOptionM document.linkRef ref) = document.firstFault (ref.toList.map Ref.risk) := by
  cases ref with
  | none => rfl
  | some ref => exact Success.fault?_bind_return.trans (fault?_linkRef ref)

theorem fault?_linkPackage? (index : Option Nat) :
    fault? (document.linkPackage? index)
      = document.firstFault (indexRisks .package index.toList) := by
  cases index with
  | none => rfl
  | some index => exact Success.fault?_bind_return.trans (fault?_linkId .package index)

theorem fault?_linkMap {α β : Type} {link : String → α → Except Fault β} {map : OrderedMap String α}
    {risks : String × α → List Fault}
    (each : ∀ entry, fault? (link entry.1 entry.2) = document.firstFault (risks entry)) :
    fault? (linkMap link map) = document.firstFault (map.entries.flatMap risks) :=
  Success.fault?_bind_return.trans <| fault?_mapM_eq fun entry =>
    Success.fault?_bind_return.trans (each entry)

theorem fault?_linkIndices (arena : Arena) (map : OrderedMap String Nat) :
    fault? (document.linkIndices arena map) = document.firstFault (indexRisks arena map.values) := by
  have same : indexRisks arena map.values
      = map.entries.flatMap fun entry => indexRisks arena [entry.2] := by
    rw [indexRisks, OrderedMap.values, List.map_map, List.map_eq_flatMap]
    rfl
  rw [same]
  exact fault?_linkMap fun entry => fault?_linkId arena entry.2

theorem fault?_linkKind (kind : Kind Nat Ref) :
    fault? (kind.mapM (document.linkId .type) document.linkRef)
      = document.firstFault (kind.refs.map Ref.risk) := by
  cases kind with
  | record fields =>
    rw [Kind.refs, List.map_map, List.map_eq_flatMap]
    exact Success.fault?_bind_return.trans <| fault?_mapM_eq fun field =>
      Success.fault?_bind_return.trans (fault?_linkRef field.type)
  | tuple types =>
    rw [Kind.refs, List.map_eq_flatMap]
    exact Success.fault?_bind_return.trans (fault?_mapM_eq fault?_linkRef)
  | variant cases =>
    rw [Kind.refs, List.map_flatMap]
    exact Success.fault?_bind_return.trans <| fault?_mapM_eq fun case =>
      Success.fault?_bind_return.trans (fault?_linkRef? case.type)
  | own index | borrow index => exact Success.fault?_bind_return.trans (fault?_linkId .type index)
  | option ref | list ref | pointer ref | synonym ref =>
    exact Success.fault?_bind_return.trans (fault?_linkRef ref)
  | future payload | stream payload =>
    exact Success.fault?_bind_return.trans (fault?_linkRef? payload)
  | result ok err =>
    rw [Kind.refs, List.map_append, firstFault_append, ← fault?_linkRef?, ← fault?_linkRef?]
    exact Success.fault?_bind fun _ _ => Success.fault?_bind_return
  | resource | flags _ | enum _ | errorContext | unknown => rfl

theorem fault?_linkOwner (owner : Option OwnerRecord) :
    fault? (document.linkOwner owner) = document.firstFault (ownerRisks owner) := by
  cases owner with
  | none => rfl
  | some owner =>
    cases owner with
    | world index => exact Success.fault?_bind_return.trans (fault?_linkId .world index)
    | interface index => exact Success.fault?_bind_return.trans (fault?_linkId .interface index)

theorem fault?_linkType (type : TypeRecord) :
    fault? (document.linkType type) = document.firstFault type.risks := by
  rw [TypeRecord.risks, firstFault_append, ← fault?_linkOwner, ← fault?_linkKind]
  exact Success.fault?_bind fun _ _ => Success.fault?_bind_return

theorem fault?_linkFunctionKind (kind : FunctionKind Nat) :
    fault? (document.linkFunctionKind kind)
      = document.firstFault (indexRisks .type kind.resource?.toList) := by
  cases kind with
  | freestanding => rfl
  | method index | static index | constructor index =>
    exact Success.fault?_bind_return.trans (fault?_linkId .type index)

theorem fault?_linkParams (params : List (Param Ref)) :
    fault? (document.linkParams params)
      = document.firstFault ((params.map Param.type).map Ref.risk) := by
  rw [List.map_map, List.map_eq_flatMap]
  exact fault?_mapM_eq fun param => Success.fault?_bind_return.trans (fault?_linkRef param.type)

theorem fault?_linkResults (result : Option Ref) (results : Option (List (Param Ref))) :
    fault? (document.linkResults result results)
      = document.firstFault (resultRisks result results) := by
  cases result with
  | none =>
    cases results with
    | none => rfl
    | some params => exact Success.fault?_bind_return.trans (fault?_linkParams params)
  | some ref =>
    cases results with
    | none => exact Success.fault?_bind_return.trans (fault?_linkRef ref)
    | some params => rfl

theorem fault?_linkFunction (function : FunctionRecord) :
    fault? (document.linkFunction function) = document.firstFault function.risks := by
  rw [FunctionRecord.risks, firstFault_append, firstFault_append, ← fault?_linkFunctionKind,
    ← fault?_linkParams, ← fault?_linkResults, Option.or_assoc]
  exact Success.fault?_bind fun _ _ => Success.fault?_bind fun _ _ => Success.fault?_bind_return

theorem fault?_linkInterface (interface : InterfaceRecord) :
    fault? (document.linkInterface interface) = document.firstFault interface.risks := by
  have functions : fault? (linkMap
        (fun name function => within (.function name) (document.linkFunction function))
        interface.functions)
      = document.firstFault (interface.functions.entries.flatMap fun entry =>
          entry.2.risks.map (Fault.within (.function entry.1))) :=
    fault?_linkMap fun entry => by rw [fault?_within, fault?_linkFunction, firstFault_within]
  rw [InterfaceRecord.risks, firstFault_append, firstFault_append, ← fault?_linkIndices, ← functions,
    ← fault?_linkPackage?, Option.or_assoc]
  exact Success.fault?_bind fun _ _ => Success.fault?_bind fun _ _ => Success.fault?_bind_return

theorem fault?_linkItem (item : ItemRecord) :
    fault? (document.linkItem item) = document.firstFault item.risks := by
  cases item with
  | interface index stability =>
    exact Success.fault?_bind_return.trans (fault?_linkId .interface index)
  | function function => exact Success.fault?_bind_return.trans (fault?_linkFunction function)
  | type ref =>
    cases ref with
    | index index => exact Success.fault?_bind_return.trans (fault?_linkId .type index)
    | name name => rfl

theorem fault?_linkItems (items : OrderedMap String ItemRecord) :
    fault? (document.linkItems items) = document.firstFault (itemsRisks items) :=
  Success.fault?_bind_return.trans <| fault?_mapM_eq fun entry =>
    Success.fault?_bind_return.trans <| by rw [fault?_within, fault?_linkItem, firstFault_within]

theorem fault?_linkWorld (world : WorldRecord) :
    fault? (document.linkWorld world) = document.firstFault world.risks := by
  rw [WorldRecord.risks, firstFault_append, firstFault_append, firstFault_within, firstFault_within,
    ← fault?_linkItems, ← fault?_linkItems, ← fault?_within, ← fault?_within, ← fault?_linkPackage?,
    Option.or_assoc]
  exact Success.fault?_bind fun _ _ => Success.fault?_bind fun _ _ => Success.fault?_bind_return

theorem fault?_linkPackage (name : Ident) (package : PackageRecord) :
    fault? (document.linkPackage name package) = document.firstFault package.risks := by
  rw [PackageRecord.risks, firstFault_append, ← fault?_linkIndices, ← fault?_linkIndices]
  exact Success.fault?_bind fun _ _ => Success.fault?_bind_return

end Document

end WitGraph
