/-
**Documents in modern form.**

A type may be used by an older name of a primitive type, and the only result of a function may stand
in a list of results. `modern` gives records in which neither is the case. A document links to the same
graph as its modern form (`link_modern_eq_ok_iff`), so what it links to does not depend on the form.
-/

import WitGraph.Proofs.Document.Linked

namespace WitGraph

namespace Document

/-! ### Modern form -/

/-- A use of a type, a primitive one under its own name. -/
def Ref.modern : Ref → Ref
  | .index position => .index position
  | .name text => .name (((Primitive.ofName? text).map Primitive.name).getD text)

end Document

open Document in
/-- A parameter or result in modern form. -/
def Param.modern (param : Param Ref) : Param Ref :=
  { param with type := param.type.modern }

open Document in
/-- A field in modern form. -/
def Field.modern (field : Field Ref) : Field Ref :=
  { field with type := field.type.modern }

open Document in
/-- A case in modern form. -/
def Case.modern (case : Case Ref) : Case Ref :=
  { case with type := case.type.map Ref.modern }

open Document in
/-- A kind in modern form. -/
def Kind.modern : Kind Nat Ref → Kind Nat Ref
  | .record fields => .record (fields.map Field.modern)
  | .tuple types => .tuple (types.map Ref.modern)
  | .variant cases => .variant (cases.map Case.modern)
  | .option payload => .option payload.modern
  | .result ok err => .result (ok.map Ref.modern) (err.map Ref.modern)
  | .list element => .list element.modern
  | .future payload => .future (payload.map Ref.modern)
  | .stream payload => .stream (payload.map Ref.modern)
  | .pointer target => .pointer target.modern
  | .synonym target => .synonym target.modern
  | kind => kind

namespace Document

/-- A type definition in modern form. -/
def TypeRecord.modern (type : TypeRecord) : TypeRecord :=
  { type with kind := type.kind.modern }

/-- The result and the list of results of a function, where one result without a name stands by
itself. -/
def singleResult : Option Ref → Option (List (Param Ref)) → Option Ref × Option (List (Param Ref))
  | none, some [param] => if param.name = "" then (some param.type, none) else (none, some [param])
  | result, results => (result, results)

/-- The result and the list of results of a function in modern form. -/
def modernResults (result : Option Ref) (results : Option (List (Param Ref))) :
    Option Ref × Option (List (Param Ref)) :=
  singleResult (result.map Ref.modern) (results.map (List.map Param.modern))

/-- A function in modern form. -/
def FunctionRecord.modern (function : FunctionRecord) : FunctionRecord :=
  { function with
    params := function.params.map Param.modern
    result := (modernResults function.result function.results).1
    results := (modernResults function.result function.results).2 }

/-- An interface in modern form. -/
def InterfaceRecord.modern (interface : InterfaceRecord) : InterfaceRecord :=
  { interface with functions := interface.functions.mapValues FunctionRecord.modern }

/-- An import or export in modern form. -/
def ItemRecord.modern : ItemRecord → ItemRecord
  | .interface index stability => .interface index stability
  | .function record => .function record.modern
  | .type ref => .type ref.modern

/-- A world in modern form. -/
def WorldRecord.modern (world : WorldRecord) : WorldRecord :=
  { world with
    imports := world.imports.mapValues ItemRecord.modern
    exports := world.exports.mapValues ItemRecord.modern }

/-- A document in modern form. -/
def modern (document : Document) : Document where
  worlds := document.worlds.map WorldRecord.modern
  interfaces := document.interfaces.map InterfaceRecord.modern
  types := document.types.map TypeRecord.modern
  packages := document.packages

/-! ### References -/

variable {document : Document}

theorem size_modern : document.modern.size = document.size := by
  funext arena
  cases arena <;> simp [size, modern]

theorem linkId_modern : document.modern.linkId = document.linkId := linkId_congr size_modern

/-- The older names of a primitive type mean the same as its own. -/
theorem ofName?_modern (text : String) :
    Primitive.ofName? (((Primitive.ofName? text).map Primitive.name).getD text)
      = Primitive.ofName? text := by
  cases named : Primitive.ofName? text with
  | none => exact named
  | some type => exact Primitive.ofName?_name type

theorem linkRef_modern (ref : Ref) : document.modern.linkRef ref.modern = document.linkRef ref := by
  cases ref with
  | index position => rw [Ref.modern, linkRef, linkRef, linkId_modern]
  | name text =>
    rw [Ref.modern, linkRef, linkRef, ofName?_modern]
    cases Primitive.ofName? text <;> rfl

theorem linkRef?_modern (ref : Option Ref) :
    Kind.mapOptionM document.modern.linkRef (ref.map Ref.modern)
      = Kind.mapOptionM document.linkRef ref := by
  cases ref with
  | none => rfl
  | some ref => rw [Option.map_some, Kind.mapOptionM, Kind.mapOptionM, linkRef_modern]

/-! ### Types -/

theorem linkKind_modern (kind : Kind Nat Ref) :
    kind.modern.mapM (document.modern.linkId .type) document.modern.linkRef
      = kind.mapM (document.linkId .type) document.linkRef := by
  cases kind with
  | record fields =>
    simp only [Kind.modern, Kind.mapM, List.mapM_map, Function.comp_def, Field.modern, linkRef_modern]
  | tuple types => simp only [Kind.modern, Kind.mapM, List.mapM_map, Function.comp_def, linkRef_modern]
  | variant cases =>
    simp only [Kind.modern, Kind.mapM, List.mapM_map, Function.comp_def, Case.modern, linkRef?_modern]
  | own index | borrow index => simp only [Kind.modern, Kind.mapM, linkId_modern]
  | option ref | list ref | pointer ref | synonym ref =>
    simp only [Kind.modern, Kind.mapM, linkRef_modern]
  | future payload | stream payload => simp only [Kind.modern, Kind.mapM, linkRef?_modern]
  | result ok err => simp only [Kind.modern, Kind.mapM, linkRef?_modern]
  | resource | flags _ | enum _ | errorContext | unknown => rfl

theorem linkType_modern (type : TypeRecord) :
    document.modern.linkType type.modern = document.linkType type := by
  rw [linkType, linkType, TypeRecord.modern, linkOwner_congr size_modern, linkKind_modern]

/-! ### Functions -/

theorem linkFunctionKind_modern : document.modern.linkFunctionKind = document.linkFunctionKind := by
  funext kind
  unfold linkFunctionKind
  rw [linkId_modern]

theorem linkParams_modern (params : List (Param Ref)) :
    document.modern.linkParams (params.map Param.modern) = document.linkParams params := by
  simp only [linkParams, List.mapM_map, Function.comp_def, Param.modern, linkRef_modern]

/-- A list with one result without a name is linked like the result by itself. -/
theorem linkResults_unnamed (type : Ref) :
    document.linkResults none (some [⟨"", type⟩]) = document.linkResults (some type) none := by
  have single : document.linkParams [⟨"", type⟩]
      = document.linkRef type >>= fun value => pure [⟨"", value⟩] := by
    rw [linkParams, List.mapM_cons, List.mapM_nil]
    cases document.linkRef type <;> rfl
  rw [linkResults, linkResults, single]
  cases document.linkRef type <;> rfl

theorem linkResults_singleResult (result : Option Ref) (results : Option (List (Param Ref))) :
    document.linkResults (singleResult result results).1 (singleResult result results).2
      = document.linkResults result results := by
  match result, results with
  | none, some [⟨name, type⟩] =>
    by_cases unnamed : name = ""
    · subst unnamed
      exact (linkResults_unnamed type).symm
    · rw [singleResult, if_neg unnamed]
  | none, none | none, some [] | none, some (_ :: _ :: _) | some _, _ => rfl

theorem linkResults_modern (result : Option Ref) (results : Option (List (Param Ref))) :
    document.modern.linkResults (modernResults result results).1 (modernResults result results).2
      = document.linkResults result results := by
  rw [modernResults, linkResults_singleResult]
  cases result <;> cases results <;>
    simp only [Option.map_none, Option.map_some, linkResults, linkRef_modern, linkParams_modern]

theorem linkFunction_modern (function : FunctionRecord) :
    document.modern.linkFunction function.modern = document.linkFunction function := by
  rw [linkFunction, linkFunction, FunctionRecord.modern, linkFunctionKind_modern, linkParams_modern,
    linkResults_modern]

/-! ### Interfaces and worlds -/

/-- Links are the same from changed values if each of them is. -/
theorem linkMap_mapValues {α β γ : Type} {link : String → α → Except Fault β}
    {other : String → γ → Except Fault β} {change : α → γ}
    (same : ∀ name value, other name (change value) = link name value) (map : OrderedMap String α) :
    linkMap other (map.mapValues change) = linkMap link map := by
  simp only [linkMap, OrderedMap.mapValues, List.mapM_map, Function.comp_def, same]

theorem linkInterface_modern (interface : InterfaceRecord) :
    document.modern.linkInterface interface.modern = document.linkInterface interface := by
  rw [linkInterface, linkInterface, InterfaceRecord.modern, linkIndices_congr size_modern, linkPackage?_congr size_modern]
  rw [linkMap_mapValues fun name function => by rw [linkFunction_modern]]

theorem linkItem_modern_eq_ok_iff {item : ItemRecord} {value : WorldItem} :
    document.modern.linkItem item.modern = .ok value ↔ document.linkItem item = .ok value := by
  cases item with
  | interface index stability => rw [ItemRecord.modern, linkItem, linkItem, linkId_modern]
  | function record => rw [ItemRecord.modern, linkItem, linkItem, linkFunction_modern]
  | type ref =>
    cases ref with
    | index position => rw [ItemRecord.modern, Ref.modern, linkItem, linkItem, linkId_modern]
    | name text => simp [ItemRecord.modern, Ref.modern, linkItem, fail]

theorem linkItems_modern_eq_ok_iff {items : OrderedMap String ItemRecord}
    {values : OrderedMap WorldKey WorldItem} :
    document.modern.linkItems (items.mapValues ItemRecord.modern) = .ok values
      ↔ document.linkItems items = .ok values := by
  simp only [linkItems, OrderedMap.mapValues, Success.bind_return_eq_ok_iff, Success.mapM_eq_ok_iff,
    List.forall₂_map_left_iff, within_eq_ok_iff, linkItem_modern_eq_ok_iff]

theorem linkWorld_modern_eq_ok_iff {world : WorldRecord} {value : World} :
    document.modern.linkWorld world.modern = .ok value ↔ document.linkWorld world = .ok value := by
  simp only [linkWorld, WorldRecord.modern, Success.bind_eq_ok_iff, within_eq_ok_iff,
    linkItems_modern_eq_ok_iff, linkPackage?_congr size_modern]

/-! ### Documents -/

/-- Records are linked if their modern forms are. -/
theorem forall₂_modern {α β : Type} {link other : α → Except Fault β} {change : α → α}
    (same : ∀ record value, other (change record) = .ok value ↔ link record = .ok value)
    {records : List α} {values : List β} :
    List.Forall₂ (fun record value => other record = .ok value) (records.map change) values
      ↔ List.Forall₂ (fun record value => link record = .ok value) records values := by
  simp only [List.forall₂_map_left_iff, same]

theorem linkedIn_modern_iff {graph : Graph} :
    document.modern.LinkedIn document.modern graph ↔ document.LinkedIn document graph := by
  have types : List.Forall₂ (fun record type => document.modern.linkType record = .ok type)
      document.modern.types graph.types.toList ↔ _ :=
    forall₂_modern fun type _ => by rw [linkType_modern]
  have interfaces :
      List.Forall₂ (fun record interface => document.modern.linkInterface record = .ok interface)
        document.modern.interfaces graph.interfaces.toList ↔ _ :=
    forall₂_modern fun interface _ => by rw [linkInterface_modern]
  have worlds : List.Forall₂ (fun record world => document.modern.linkWorld record = .ok world)
      document.modern.worlds graph.worlds.toList ↔ _ :=
    forall₂_modern fun _ _ => linkWorld_modern_eq_ok_iff
  have packages : List.Forall₂ document.modern.LinksPackage document.modern.packages
      graph.packages.toList
      ↔ List.Forall₂ document.LinksPackage document.packages graph.packages.toList := by
    rw [linksPackage_congr size_modern]
    rfl
  exact ⟨fun linked => ⟨types.mp linked.types, interfaces.mp linked.interfaces,
      worlds.mp linked.worlds, packages.mp linked.packages⟩,
    fun linked => ⟨types.mpr linked.types, interfaces.mpr linked.interfaces,
      worlds.mpr linked.worlds, packages.mpr linked.packages⟩⟩

/-- **A document links to the same graph as its modern form.** -/
theorem link_modern_eq_ok_iff {graph : Graph} :
    document.modern.link = .ok graph ↔ document.link = .ok graph := by
  rw [link_eq_ok_iff, link_eq_ok_iff]
  constructor
  · intro linked
    exact ⟨linkedIn_modern_iff.mp linked.toLinkedIn, linked.names⟩
  · intro linked
    exact ⟨linkedIn_modern_iff.mpr linked.toLinkedIn, linked.names⟩

end Document

end WitGraph
