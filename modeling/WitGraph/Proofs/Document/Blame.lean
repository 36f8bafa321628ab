/-
**Which fault of a document is reported.**

The parts of a document are checked in the order of `Document.parts`: the names of packages, then all
elements arena by arena, and last the names that packages share. `HasDefect` says what makes a part
defective. `ofSymbols_blames_first` says that a document is refused exactly if one of its parts is defective,
and that the outermost message names the first one (`Headline`).
-/

import WitGraph.Proofs.Document.Faults
import WitGraph.Proofs.OrderedMap

namespace WitGraph

open Success (fault?)

namespace Document

variable {document : Document}

/-! ### The parts of a document -/

/-- A part of a document that is checked as a whole. -/
inductive Part where
  /-- The name of a package. -/
  | packageName (index : Nat)
  /-- An element of a list; of a package, its contents. -/
  | element (arena : Arena) (index : Nat)
  /-- The name of a package beside those of the packages before it. -/
  | repetition (index : Nat)
deriving DecidableEq

/-- The parts of a document in the order in which they are checked. -/
def parts (document : Document) : List Part :=
  (List.range document.packages.length).map .packageName
    ++ ([.type, .interface, .world, .package].flatMap fun arena =>
        (List.range (document.size arena)).map (.element arena))
    ++ (List.range document.packages.length).map .repetition

/-- What can be wrong with an element. -/
def risks (document : Document) : Arena → Nat → List Fault
  | .type, index => (document.types[index]?.map TypeRecord.risks).getD []
  | .interface, index => (document.interfaces[index]?.map InterfaceRecord.risks).getD []
  | .world, index => (document.worlds[index]?.map WorldRecord.risks).getD []
  | .package, index => (document.packages[index]?.map PackageRecord.risks).getD []

/-- A part of the document is defective. -/
inductive HasDefect (document : Document) : Part → Prop
  /-- The name of a package is no identifier. -/
  | packageName {index : Nat} {record : PackageRecord} (isRecord : document.packages[index]? = some record)
    (unreadable : ∀ name, Ident.parse record.name ≠ .ok name) : HasDefect document (.packageName index)
  /-- A position is not within the arena to which it refers. -/
  | outOfBounds {arena target : Arena} {index position : Nat} {path : List Place}
    (listed : ⟨path, .outOfBounds target position⟩ ∈ document.risks arena index)
    (outside : document.size target ≤ position) : HasDefect document (.element arena index)
  /-- No primitive type has the name of a type. -/
  | unknownType {arena : Arena} {index : Nat} {path : List Place} {name : String}
    (listed : ⟨path, .unknownType name⟩ ∈ document.risks arena index)
    (unknown : Primitive.ofName? name = none) : HasDefect document (.element arena index)
  /-- An import or export of a type is given by name. -/
  | primitiveItem {arena : Arena} {index : Nat} {path : List Place} {name : String}
    (listed : ⟨path, .primitiveItem name⟩ ∈ document.risks arena index) :
    HasDefect document (.element arena index)
  /-- A function states its result in both ways. -/
  | twoResults {arena : Arena} {index : Nat} {path : List Place}
    (listed : ⟨path, .twoResults⟩ ∈ document.risks arena index) :
    HasDefect document (.element arena index)
  /-- The name of a package is that of an earlier one. -/
  | repetition {index : Nat} {record earlier : PackageRecord} {name : Ident}
    (isRecord : document.packages[index]? = some record) (named : Ident.parse record.name = .ok name)
    (isEarlier : earlier ∈ document.packages.take index) (same : Ident.parse earlier.name = .ok name) :
    HasDefect document (.repetition index)

/-- The message that names a part. -/
inductive Headline (document : Document) : Part → String → Prop
  | packageName {index : Nat} {record : PackageRecord}
    (isRecord : document.packages[index]? = some record) :
    Headline document (.packageName index) s!"invalid name `{record.name}` for package {index}"
  | element (arena : Arena) (index : Nat) :
    Headline document (.element arena index) s!"failed to decode {arena.noun} {index}"
  | repetition {index : Nat} {record : PackageRecord} {name : Ident}
    (isRecord : document.packages[index]? = some record) (named : Ident.parse record.name = .ok name) :
    Headline document (.repetition index) s!"package `{name.text}` is defined more than once"

/-- The identifiers of the packages before a position. -/
def namesBefore (document : Document) (index : Nat) : List Ident :=
  (document.packages.take index).filterMap fun record => Ident.parse? record.name

/-- The fault of a part, if it is defective. -/
def faultAt (document : Document) : Part → Option DecodeFault
  | .packageName index =>
    document.packages[index]?.bind fun record =>
      (fault? (Ident.parse record.name)).map (.packageName index record.name)
  | .element arena index =>
    (document.firstFault (document.risks arena index)).map fun fault =>
      .element (fault.within (.element arena index))
  | .repetition index =>
    (document.packages[index]?.bind fun record => Ident.parse? record.name).bind fun name =>
      if name ∈ document.namesBefore index then some (.repeatedPackage name) else none

theorem parse?_eq_some_iff {text : String} {name : Ident} :
    Ident.parse? text = some name ↔ Ident.parse text = .ok name := by
  unfold Ident.parse?
  cases Ident.parse text <;> simp [Except.toOption]

theorem mem_namesBefore_iff {index : Nat} {name : Ident} :
    name ∈ document.namesBefore index
      ↔ ∃ record ∈ document.packages.take index, Ident.parse record.name = .ok name := by
  simp only [namesBefore, List.mem_filterMap, parse?_eq_some_iff]

theorem hasDefect_element_iff {arena : Arena} {index : Nat} :
    document.HasDefect (.element arena index)
      ↔ ∃ fault ∈ document.risks arena index, fault.defect.Occurs document := by
  constructor
  · intro defective
    cases defective with
    | outOfBounds listed outside => exact ⟨_, listed, outside⟩
    | unknownType listed unknown => exact ⟨_, listed, unknown⟩
    | primitiveItem listed => exact ⟨_, listed, trivial⟩
    | twoResults listed => exact ⟨_, listed, trivial⟩
  · rintro ⟨⟨path, defect⟩, listed, occurs⟩
    cases defect with
    | outOfBounds target position => exact .outOfBounds listed occurs
    | unknownType name => exact .unknownType listed occurs
    | primitiveItem name => exact .primitiveItem listed
    | twoResults => exact .twoResults listed

theorem faultAt_repetition_eq_some_iff {index : Nat} {fault : DecodeFault} :
    document.faultAt (.repetition index) = some fault
      ↔ ∃ record name, document.packages[index]? = some record ∧ Ident.parse record.name = .ok name
        ∧ name ∈ document.namesBefore index ∧ fault = .repeatedPackage name := by
  simp only [faultAt, Option.bind_eq_some_iff, Option.ite_none_right_eq_some, Option.some.injEq,
    parse?_eq_some_iff]
  constructor
  · rintro ⟨name, ⟨record, isRecord, named⟩, isBefore, same⟩
    exact ⟨record, name, isRecord, named, isBefore, same.symm⟩
  · rintro ⟨record, name, isRecord, named, isBefore, same⟩
    exact ⟨name, ⟨record, isRecord, named⟩, isBefore, same.symm⟩

/-- A part is defective exactly if it has a fault. -/
theorem hasDefect_iff {part : Part} :
    document.HasDefect part ↔ ∃ fault, document.faultAt part = some fault := by
  cases part with
  | packageName index =>
    simp only [faultAt, Option.bind_eq_some_iff, Option.map_eq_some_iff, Success.fault?_eq_some_iff]
    constructor
    · intro defective
      cases defective with
      | @packageName _ record isRecord unreadable =>
        cases parsed : Ident.parse record.name with
        | ok name => exact absurd parsed (unreadable name)
        | error fault => exact ⟨_, record, isRecord, fault, parsed, rfl⟩
    · rintro ⟨-, record, isRecord, fault, failed, -⟩
      exact .packageName isRecord fun name read => by cases failed.symm.trans read
  | element arena index =>
    rw [hasDefect_element_iff]
    simp only [faultAt, Option.map_eq_some_iff]
    constructor
    · rintro ⟨risk, listed, occurs⟩
      cases found : document.firstFault (document.risks arena index) with
      | none => exact absurd occurs (firstFault_eq_none_iff.mp found risk listed)
      | some fault => exact ⟨_, fault, rfl, rfl⟩
    · rintro ⟨-, fault, found, -⟩
      exact ⟨fault, firstFault_eq_some found⟩
  | repetition index =>
    simp only [faultAt_repetition_eq_some_iff, mem_namesBefore_iff]
    constructor
    · intro defective
      cases defective with
      | repetition isRecord named isEarlier same =>
        exact ⟨_, _, _, isRecord, named, ⟨_, isEarlier, same⟩, rfl⟩
    · rintro ⟨-, record, name, isRecord, named, ⟨earlier, isEarlier, same⟩, -⟩
      exact .repetition isRecord named isEarlier same

/-- The outermost message of the fault of a part names this part. -/
theorem exists_headline {part : Part} {fault : DecodeFault}
    (found : document.faultAt part = some fault) :
    ∃ message, fault.chain.head? = some message ∧ document.Headline part message := by
  cases part with
  | packageName index =>
    obtain ⟨record, isRecord, found⟩ := Option.bind_eq_some_iff.mp found
    obtain ⟨_, -, rfl⟩ := Option.map_eq_some_iff.mp found
    exact ⟨_, rfl, .packageName isRecord⟩
  | element arena index =>
    obtain ⟨_, -, rfl⟩ := Option.map_eq_some_iff.mp found
    exact ⟨_, rfl, .element arena index⟩
  | repetition index =>
    obtain ⟨record, name, isRecord, named, -, rfl⟩ := faultAt_repetition_eq_some_iff.mp found
    exact ⟨_, rfl, .repetition isRecord named⟩

/-! ### The fault of a document -/

theorem findSome?_range_succ {α : Type} (count : Nat) (find : Nat → Option α) :
    (List.range (count + 1)).findSome? find
      = (find 0).or ((List.range count).findSome? fun index => find (index + 1)) := by
  rw [List.range_succ_eq_map, List.findSome?_cons, List.findSome?_map]
  cases find 0 <;> rfl

/-- Of elements that are linked from a position on, the first one with a fault counts. -/
theorem fault?_linkAll {α β : Type} {arena : Arena} {link : α → Except Fault β} {risks : α → List Fault}
    (each : ∀ element, fault? (link element) = document.firstFault (risks element)) (start : Nat)
    (list : List α) :
    fault? (linkAll arena link start list)
      = (List.range list.length).findSome? fun index =>
          (document.firstFault ((list[index]?.map risks).getD [])).map
            (Fault.within (.element arena (start + index))) := by
  induction list generalizing start with
  | nil => rfl
  | cons first rest ih =>
    have others (value : β) :
        fault? (linkAll arena link (start + 1) rest >>= fun values => pure (value :: values))
          = fault? (linkAll arena link (start + 1) rest) :=
      Success.fault?_bind_return
    rw [linkAll, Success.fault?_bind fun value _ => others value, fault?_within, each, ih,
      List.length_cons, findSome?_range_succ]
    simp only [Nat.add_assoc, Nat.add_comm 1]
    rfl

/-- Of names that are read from a position on, the first one that is no identifier counts. -/
theorem fault?_readNames (start : Nat) (list : List PackageRecord) :
    fault? (readNames start list)
      = (List.range list.length).findSome? fun index =>
          list[index]?.bind fun record =>
            (fault? (Ident.parse record.name)).map (.packageName (start + index) record.name) := by
  induction list generalizing start with
  | nil => rfl
  | cons first rest ih =>
    rw [List.length_cons, findSome?_range_succ, readNames]
    cases parsed : Ident.parse first.name with
    | error fault => simp [parsed, fault?]
    | ok name =>
      have others : fault? (readNames (start + 1) rest >>= fun names => pure (name :: names))
          = fault? (readNames (start + 1) rest) :=
        Success.fault?_bind_return
      refine others.trans ((ih (start + 1)).trans ?_)
      simp [parsed, fault?, Nat.add_assoc, Nat.add_comm 1]

/-- Of packages that are entered by name, the first one whose name is there already counts. -/
theorem snd_enterNames (names : OrderedMap Ident PackageId) (start : Nat) (packages : List Package) :
    (Graph.enterNames names start packages).2
      = (List.range packages.length).findSome? fun index =>
          (packages.map Package.name)[index]?.bind fun name =>
            if name ∈ names.keys ++ (packages.map Package.name).take index then some name else none := by
  induction packages generalizing start names with
  | nil => rfl
  | cons package rest ih =>
    rw [List.length_cons, findSome?_range_succ, Graph.enterNames]
    by_cases present : package.name ∈ names.keys
    · simp [names.contains_iff.mpr present, present]
    · have fresh : ¬ names.contains package.name = true := fun there =>
        present (names.contains_iff.mp there)
      rw [if_neg fresh, ih]
      simp [present, OrderedMap.keys_insert]

theorem fault?_lift {α : Type} (result : Except Fault α) :
    fault? (lift result) = (fault? result).map .element := by
  cases result <;> rfl

/-- The parts of an arena are checked in the order of their positions. -/
theorem fault?_elements {α β : Type} {arena : Arena} {link : α → Except Fault β}
    {recordRisks : α → List Fault}
    (each : ∀ element, fault? (link element) = document.firstFault (recordRisks element))
    {list : List α} (size : list.length = document.size arena)
    (listed : ∀ index, document.risks arena index = (list[index]?.map recordRisks).getD []) :
    fault? (lift (linkAll arena link 0 list))
      = ((List.range (document.size arena)).map (Part.element arena)).findSome? document.faultAt := by
  rw [fault?_lift, fault?_linkAll each, size, List.map_findSome?, List.findSome?_map]
  congr 1
  funext index
  simp only [Function.comp_apply, faultAt, listed, Nat.zero_add, Option.map_map]
  rfl

theorem findSome?_parts {α : Type} (find : Part → Option α) :
    document.parts.findSome? find
      = (((List.range document.packages.length).map Part.packageName).findSome? find).or
          ((((List.range (document.size .type)).map (Part.element .type)).findSome? find).or
            ((((List.range (document.size .interface)).map (Part.element .interface)).findSome? find).or
              ((((List.range (document.size .world)).map (Part.element .world)).findSome? find).or
                ((((List.range (document.size .package)).map (Part.element .package)).findSome? find).or
                  (((List.range document.packages.length).map Part.repetition).findSome? find))))) := by
  simp only [parts, List.findSome?_append, List.flatMap_cons, List.flatMap_nil, List.append_nil,
    Option.or_assoc]

/-- The contents of packages whose names have been read. -/
theorem fault?_packages {names : List Ident} (read : readNames 0 document.packages = .ok names) :
    fault? (lift (linkAll .package (fun package => document.linkPackage package.1 package.2) 0
        (names.zip document.packages)))
      = ((List.range (document.size .package)).map (Part.element .package)).findSome?
          document.faultAt := by
  have lengths : document.packages.length = names.length :=
    (readNames_eq_ok_iff.mp read).length_eq
  have contents : (names.zip document.packages).map Prod.snd = document.packages :=
    List.map_snd_zip (Nat.le_of_eq lengths)
  have each (pair : Ident × PackageRecord) :
      fault? (document.linkPackage pair.1 pair.2) = document.firstFault pair.2.risks :=
    fault?_linkPackage pair.1 pair.2
  refine fault?_elements each ?_ fun index => ?_
  · rw [List.length_zip, lengths, Nat.min_self]
    exact lengths.symm
  · calc document.risks .package index
        = (((names.zip document.packages).map Prod.snd)[index]?.map PackageRecord.risks).getD [] := by
          rw [contents]
          rfl
      _ = ((names.zip document.packages)[index]?.map fun pair => pair.2.risks).getD [] := by
          rw [List.getElem?_map, Option.map_map]
          rfl

/-- Names that have been read are what the names of the packages parse to. -/
theorem map_parse?_of_readNames {names : List Ident}
    (read : readNames 0 document.packages = .ok names) :
    document.packages.map (fun record => Ident.parse? record.name) = names.map some :=
  (Success.map_eq_map (readNames_eq_ok_iff.mp read) fun _ _ _ named =>
    (parse?_eq_some_iff.mpr named).symm).symm

theorem namesBefore_of_readNames {names : List Ident}
    (read : readNames 0 document.packages = .ok names) (index : Nat) :
    document.namesBefore index = names.take index := by
  calc document.namesBefore index
      = ((document.packages.map fun record => Ident.parse? record.name).take index).filterMap id := by
        rw [← List.map_take, List.filterMap_map]
        rfl
    _ = names.take index := by
        rw [map_parse?_of_readNames read, ← List.map_take, List.filterMap_map]
        exact List.filterMap_some

theorem faultAt_repetition {names : List Ident} (read : readNames 0 document.packages = .ok names)
    (index : Nat) :
    document.faultAt (.repetition index)
      = (names[index]?.bind fun name =>
          if name ∈ names.take index then some name else none).map .repeatedPackage := by
  have name : (document.packages[index]?.bind fun record => Ident.parse? record.name)
      = names[index]? := by
    calc (document.packages[index]?.bind fun record => Ident.parse? record.name)
        = (document.packages.map fun record => Ident.parse? record.name)[index]?.join := by
          rw [List.getElem?_map]
          cases document.packages[index]? <;> rfl
      _ = names[index]? := by
          rw [map_parse?_of_readNames read, List.getElem?_map]
          cases names[index]? <;> rfl
  rw [faultAt, name, namesBefore_of_readNames read]
  cases names[index]? with
  | none => rfl
  | some name =>
    by_cases member : name ∈ names.take index <;> simp [member]

/-- Among packages that have been linked, the first one whose name is that of an earlier one. -/
theorem fault?_index {names : List Ident} {graph : Graph}
    (read : readNames 0 document.packages = .ok names)
    (named : graph.packages.toList.map Package.name = names) :
    fault? (match graph.indexPackageNames with
      | (graph, none) => (return graph : Except DecodeFault Graph)
      | (_, some name) => throw (DecodeFault.repeatedPackage name))
      = ((List.range document.packages.length).map Part.repetition).findSome? document.faultAt := by
  have entered : fault? (match graph.indexPackageNames with
      | (graph, none) => (return graph : Except DecodeFault Graph)
      | (_, some name) => throw (DecodeFault.repeatedPackage name))
      = (Graph.enterNames {} 0 graph.packages.toList).2.map .repeatedPackage := by
    unfold Graph.indexPackageNames
    obtain ⟨map, repeated⟩ := Graph.enterNames {} 0 graph.packages.toList
    cases repeated <;> rfl
  have count : graph.packages.toList.length = document.packages.length := by
    rw [(readNames_eq_ok_iff.mp read).length_eq, ← named, List.length_map]
  rw [entered, snd_enterNames, named, count, List.map_findSome?, List.findSome?_map]
  congr 1
  funext index
  exact (faultAt_repetition read index).symm

/-- The names of linked packages are those that have been read. -/
theorem names_of_linkAll {names : List Ident} {packages : List Package}
    (lengths : document.packages.length = names.length)
    (linked : linkAll .package (fun package => document.linkPackage package.1 package.2) 0
      (names.zip document.packages) = .ok packages) :
    packages.map Package.name = names := by
  calc packages.map Package.name
      = (names.zip document.packages).map Prod.fst :=
        Success.map_eq_map (linkAll_eq_ok_iff.mp linked) fun _ _ _ isLinked =>
          name_of_linkPackage isLinked
    _ = names := List.map_fst_zip (Nat.le_of_eq lengths.symm)

/-- **The fault of a document is that of its first part that has one.** -/
theorem fault?_link : fault? document.link = document.parts.findSome? document.faultAt := by
  have names : fault? (readNames 0 document.packages)
      = ((List.range document.packages.length).map Part.packageName).findSome? document.faultAt := by
    rw [fault?_readNames, List.findSome?_map]
    simp only [Nat.zero_add]
    rfl
  have types : fault? (lift (linkAll .type document.linkType 0 document.types))
      = ((List.range (document.size .type)).map (Part.element .type)).findSome? document.faultAt :=
    fault?_elements fault?_linkType rfl fun _ => rfl
  have interfaces :
      fault? (lift (linkAll .interface document.linkInterface 0 document.interfaces))
        = ((List.range (document.size .interface)).map (Part.element .interface)).findSome?
            document.faultAt :=
    fault?_elements fault?_linkInterface rfl fun _ => rfl
  have worlds : fault? (lift (linkAll .world document.linkWorld 0 document.worlds))
      = ((List.range (document.size .world)).map (Part.element .world)).findSome? document.faultAt :=
    fault?_elements fault?_linkWorld rfl fun _ => rfl
  rw [findSome?_parts, ← names, ← types, ← interfaces, ← worlds]
  refine Success.fault?_bind fun names read => Success.fault?_bind fun _ _ =>
    Success.fault?_bind fun _ _ => Success.fault?_bind fun _ _ => ?_
  rw [← fault?_packages read]
  refine Success.fault?_bind fun packages linked => fault?_index read ?_
  exact names_of_linkAll (readNames_eq_ok_iff.mp read).length_eq (lift_eq_ok_iff.mp linked)

/-- **A document is refused exactly if one of its parts is defective, and the outermost message names
the first such part.** -/
theorem ofSymbols_blames_first {symbols : List Text.Symbol} {document : Document}
    (read : ofSymbols? symbols = some document) :
    ((∃ fault, Graph.ofSymbols symbols = .error fault)
        ↔ ∃ part ∈ document.parts, document.HasDefect part)
      ∧ ∀ fault, Graph.ofSymbols symbols = .error fault → ∃ before part after,
        document.parts = before ++ part :: after ∧ document.HasDefect part
          ∧ (∀ other ∈ before, ¬ document.HasDefect other)
          ∧ ∃ message, fault.chain.head? = some message ∧ document.Headline part message := by
  have linked : Graph.ofSymbols symbols = document.link := by
    rw [Graph.ofSymbols, read]
  rw [linked]
  simp only [← Success.fault?_eq_some_iff, fault?_link]
  constructor
  · constructor
    · rintro ⟨fault, found⟩
      obtain ⟨before, part, after, isParts, isFault, -⟩ := List.findSome?_eq_some_iff.mp found
      have member : part ∈ document.parts := by
        rw [isParts]
        exact List.mem_append_right _ (List.mem_cons_self ..)
      exact ⟨part, member, hasDefect_iff.mpr ⟨fault, isFault⟩⟩
    · rintro ⟨part, member, defective⟩
      obtain ⟨fault, isFault⟩ := hasDefect_iff.mp defective
      refine Option.ne_none_iff_exists'.mp fun none => ?_
      have noFault := List.findSome?_eq_none_iff.mp none part member
      rw [isFault] at noFault
      cases noFault
  · intro fault found
    obtain ⟨before, part, after, isParts, isFault, noneBefore⟩ :=
      List.findSome?_eq_some_iff.mp found
    refine ⟨before, part, after, isParts, hasDefect_iff.mpr ⟨fault, isFault⟩, ?_,
      exists_headline isFault⟩
    intro other isBefore defective
    obtain ⟨earlier, isEarlier⟩ := hasDefect_iff.mp defective
    rw [noneBefore other isBefore] at isEarlier
    cases isEarlier

namespace Faulty

/-- The text of a document with a position out of bounds in the second type and in the interface, and
with two packages of one name. -/
def text : String := "\n".intercalate [
  "\x7b\"types\":[\x7b\"kind\":\x7b\"list\":\"u8\"\x7d\x7d,\x7b\"kind\":\x7b\"option\":7\x7d\x7d],",
  "\"interfaces\":[\x7b\"types\":\x7b\"t\":2\x7d\x7d],",
  "\"packages\":[\x7b\"name\":\"a:b\"\x7d,\x7b\"name\":\"a:b\"\x7d]\x7d"]

/-- The records of the document. -/
def records : Document where
  types := [{ kind := .list (.name "u8") }, { kind := .option (.index 7) }]
  interfaces := [{ types := .ofList [("t", 2)] }]
  packages := [{ name := "a:b" }, { name := "a:b" }]

theorem read : ofSymbols? (Text.symbols text) = some records := by
  rw [text, Text.symbols, String.toList_intercalate]
  decide +kernel

end Faulty

theorem ofSymbols_blames_first_faulty :
    ofSymbols? (Text.symbols Faulty.text) = some Faulty.records
      ∧ ∃ fault, Graph.ofSymbols (Text.symbols Faulty.text) = .error fault
        ∧ ∃ before part after, Faulty.records.parts = before ++ part :: after
          ∧ Faulty.records.HasDefect part ∧ (∀ other ∈ before, ¬ Faulty.records.HasDefect other)
          ∧ ∃ message, fault.chain.head? = some message ∧ Faulty.records.Headline part message := by
  have listed : ⟨[], .outOfBounds .type 7⟩ ∈ Faulty.records.risks .type 1 := by decide
  have outside : Faulty.records.HasDefect (.element .type 1) := .outOfBounds listed (by decide)
  have blamed := ofSymbols_blames_first Faulty.read
  obtain ⟨fault, refused⟩ := blamed.1.mpr ⟨_, by decide, outside⟩
  exact ⟨Faulty.read, fault, refused, blamed.2 fault refused⟩

end Document

end WitGraph
