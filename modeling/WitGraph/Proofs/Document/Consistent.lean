/-
**A graph that has been read is built from its document.**

`Graph.IsBuiltFrom` says what can be relied on after reading (`ofText_isBuiltFrom`). Each list of the
document becomes an arena: it is as long as the list, and each of its entities is described by the
element at the same position. All ids are within their arenas, wherever they stand, no definition is
left open, and maps by key or by name have lost none of their keys:

* a side of a world has an entry for every name in the document, at the place where the name stands
  first (`OrderedMap.keys_ofList`), so that no two names have become one key;
* the packages are entered by name in their order.
-/

import WitGraph.Proofs.Dependency
import WitGraph.Proofs.Document.Described
import WitGraph.Proofs.Document.WellLinked

namespace WitGraph

/-! ### Lists and names in JSON -/

namespace Json

/-- The field of a record, if the value is a record that has it. -/
def field? (json : Json) (names : List String) (name : String) : Option Json :=
  (json.fields? names).bind fun fields => fields.lookup name

/-- The elements of a list that may be absent. -/
def elements : Option Json → List Json
  | some (.array items) => items
  | _ => []

/-- The names of the members of an object that may be absent, as often as they occur. -/
def memberNames : Option Json → List String
  | some (.object members) => members.filterMap Prod.fst
  | _ => []

variable {α : Type} {read : Json → Option α} {fields : Fields} {name : String}

/-- A list that may be absent is read element by element. -/
theorem forall₂_of_optional?_items? {values : List α}
    (found : fields.optional? name (items? read) [] = some values) :
    List.Forall₂ (fun json value => read json = some value) (elements (fields.lookup name)) values := by
  unfold Fields.optional? at found
  split at found
  · rename_i absent
    cases found
    rw [absent]
    exact .nil
  · rename_i json present
    rw [present]
    unfold items? at found
    split at found
    · exact Success.mapM_eq_some_iff.mp found
    · cases found

/-- A map that may be absent has the names of its members as keys, at their first places. -/
theorem keys_of_optional?_readMap? {map : OrderedMap String α}
    (found : fields.optional? name (Document.readMap? read) {} = some map) :
    map.keys = (memberNames (fields.lookup name)).eraseDups := by
  unfold Fields.optional? at found
  split at found
  · rename_i absent
    cases found
    rw [absent]
    rfl
  · rename_i json present
    obtain ⟨entries, areEntries, rfl⟩ := Option.map_eq_some_iff.mp found
    obtain ⟨members, areMembers, readEntries⟩ := Option.bind_eq_some_iff.mp areEntries
    have names : entries.map Prod.fst = members.map Prod.fst := by
      refine Success.map_eq_map (Success.mapM_eq_some_iff.mp readEntries) fun member _ entry made => ?_
      obtain ⟨value, -, ⟨⟩⟩ := Option.bind_eq_some_iff.mp made
      rfl
    unfold members? at areMembers
    split at areMembers
    · rw [OrderedMap.keys_ofList, names, map_fst_of_mapM_keyed? areMembers, present]
      rfl
    · cases areMembers

end Json

/-! ### Documents and their parts -/

/-- The name of the list of a document that holds the elements of an arena. -/
def Arena.listName : Arena → String
  | .package => "packages"
  | .world => "worlds"
  | .interface => "interfaces"
  | .type => "types"

/-- The name of the map of a world that holds a side. -/
def Side.mapName : Side → String
  | .imports => "imports"
  | .exports => "exports"

namespace Document

/-- The elements of a document that stand for the entities of an arena. -/
def elements (json : Json) (arena : Arena) : List Json :=
  Json.elements (json.field? ["worlds", "interfaces", "types", "packages"] arena.listName)

/-- The names of the imports or exports in an element that stands for a world. -/
def sideNames (element : Json) (side : Side) : List String :=
  Json.memberNames (element.field? ["name", "imports", "exports", "package", "docs", "stability"]
    side.mapName)

end Document

open Document in
/-- The entity is described by the record that is read from the element. -/
def Entity.IsBuiltFrom : {arena : Arena} → Json → Entity arena → Prop
  | .package => fun element package =>
    ∃ record, readPackage? element = some record ∧ record.Describes package
  | .world => fun element world =>
    ∃ record, readWorld? element = some record ∧ record.Describes world
  | .interface => fun element interface =>
    ∃ record, readInterface? element = some record ∧ record.Describes interface
  | .type => fun element type => ∃ record, readType? element = some record ∧ record.Describes type

/-- The graph consists of what a document says, and it is consistent. -/
structure Graph.IsBuiltFrom (graph : Graph) (json : Json) : Prop where
  /-- Each arena is as long as the list of its elements, and its entities are built from them. -/
  entities : ∀ arena, List.Forall₂ Entity.IsBuiltFrom (Document.elements json arena)
    (graph.arena arena).toList
  /-- The texts of the keys of a world are the names in its element, each at its first place. -/
  keys : List.Forall₂ (fun element (world : World) => ∀ side,
    (world.side side).keys.map WorldKey.text = (Document.sideNames element side).eraseDups)
    (Document.elements json .world) graph.worlds.toList
  /-- A key is an interface exactly if its text says so and this interface stands under it. -/
  interfaceKeys : ∀ world ∈ graph.worlds, ∀ entry ∈ world.entries, ∀ id,
    entry.1 = .interface id
      ↔ entry.1.text = s!"interface-{id.index}" ∧ entry.2.interface? = some id
  /-- All ids are within their arenas. -/
  closed : graph.IsClosed
  /-- No kind is left open, and there are no pointers. -/
  kinds : ∀ id kind, graph.kind? id = some kind →
    kind ≠ .unknown ∧ ∀ target, kind ≠ .pointer target
  /-- No function has a list of results that consists of one without a name. -/
  results : ∀ place function, graph.function? place = some function →
    ∀ type, function.results ≠ .named [⟨"", type⟩]
  /-- No two packages share a name. -/
  names : (graph.packages.toList.map Package.name).Nodup
  /-- The packages are entered by name in their order. -/
  packageNames : graph.packageNames.entries
    = graph.packages.toList.zipIdx.map fun (package, index) => (package.name, ⟨index⟩)

namespace Document

variable {document : Document} {json : Json} {graph : Graph}

/-! ### Elements -/

/-- The records of a document are read from its elements. -/
theorem records_of_ofJson? (found : ofJson? json = some document) :
    List.Forall₂ (fun element record => readWorld? element = some record) (elements json .world)
        document.worlds
      ∧ List.Forall₂ (fun element record => readInterface? element = some record)
        (elements json .interface) document.interfaces
      ∧ List.Forall₂ (fun element record => readType? element = some record) (elements json .type)
        document.types
      ∧ List.Forall₂ (fun element record => readPackage? element = some record)
        (elements json .package) document.packages := by
  unfold ofJson? at found
  obtain ⟨fields, areFields, found⟩ := Option.bind_eq_some_iff.mp found
  obtain ⟨worlds, areWorlds, found⟩ := Option.bind_eq_some_iff.mp found
  obtain ⟨interfaces, areInterfaces, found⟩ := Option.bind_eq_some_iff.mp found
  obtain ⟨types, areTypes, found⟩ := Option.bind_eq_some_iff.mp found
  obtain ⟨packages, arePackages, ⟨⟩⟩ := Option.bind_eq_some_iff.mp found
  have lists (arena : Arena) : elements json arena = Json.elements (fields.lookup arena.listName) := by
    rw [elements, Json.field?, areFields, Option.bind_some]
  rw [lists, lists, lists, lists]
  exact ⟨Json.forall₂_of_optional?_items? areWorlds, Json.forall₂_of_optional?_items? areInterfaces,
    Json.forall₂_of_optional?_items? areTypes, Json.forall₂_of_optional?_items? arePackages⟩

theorem Linked.entities (linked : document.Linked graph) (found : ofJson? json = some document)
    (arena : Arena) :
    List.Forall₂ Entity.IsBuiltFrom (elements json arena) (graph.arena arena).toList := by
  obtain ⟨worlds, interfaces, types, packages⟩ := records_of_ofJson? found
  cases arena with
  | package =>
    exact Success.forall₂_trans packages (linked.packages.imp fun _ _ => describes_of_linksPackage)
  | world => exact Success.forall₂_trans worlds (linked.worlds.imp fun _ _ => describes_of_linkWorld)
  | interface =>
    exact Success.forall₂_trans interfaces (linked.interfaces.imp fun _ _ => describes_of_linkInterface)
  | type => exact Success.forall₂_trans types (linked.types.imp fun _ _ => describes_of_linkType)

/-! ### Keys -/

/-- The sides of a world record have the names of its element. -/
theorem keys_of_readWorld? {element : Json} {record : WorldRecord}
    (found : readWorld? element = some record) (side : Side) :
    (record.side side).keys = (sideNames element side).eraseDups := by
  unfold readWorld? at found
  obtain ⟨fields, areFields, found⟩ := Option.bind_eq_some_iff.mp found
  obtain ⟨name, -, found⟩ := Option.bind_eq_some_iff.mp found
  obtain ⟨imports, areImports, found⟩ := Option.bind_eq_some_iff.mp found
  obtain ⟨exports, areExports, found⟩ := Option.bind_eq_some_iff.mp found
  obtain ⟨package, -, found⟩ := Option.bind_eq_some_iff.mp found
  obtain ⟨docs, -, found⟩ := Option.bind_eq_some_iff.mp found
  obtain ⟨stability, -, ⟨⟩⟩ := Option.bind_eq_some_iff.mp found
  rw [sideNames, Json.field?, areFields, Option.bind_some]
  cases side with
  | imports => exact Json.keys_of_optional?_readMap? areImports
  | exports => exact Json.keys_of_optional?_readMap? areExports

theorem ItemsDescribe.map_text_keys {records : OrderedMap String ItemRecord}
    {items : OrderedMap WorldKey WorldItem} (described : ItemsDescribe records items) :
    items.keys.map WorldKey.text = records.keys := by
  rw [OrderedMap.keys, List.map_map]
  exact Success.map_eq_map described fun _ _ _ pair => pair.1

theorem Linked.keys (linked : document.Linked graph) (found : ofJson? json = some document) :
    List.Forall₂ (fun element (world : World) => ∀ side,
      (world.side side).keys.map WorldKey.text = (sideNames element side).eraseDups)
      (elements json .world) graph.worlds.toList := by
  obtain ⟨worlds, -, -, -⟩ := records_of_ofJson? found
  refine (Success.forall₂_trans worlds linked.worlds).imp ?_
  rintro element world ⟨record, isRecord, isWorld⟩ side
  rw [((describes_of_linkWorld isWorld).sides side).map_text_keys, keys_of_readWorld? isRecord]

theorem Linked.interfaceKeys (linked : document.Linked graph) {world : World}
    (member : world ∈ graph.worlds) {entry : WorldKey × WorldItem} (listed : entry ∈ world.entries)
    (id : InterfaceId) :
    entry.1 = .interface id
      ↔ entry.1.text = s!"interface-{id.index}" ∧ entry.2.interface? = some id := by
  obtain ⟨record, -, isLinked⟩ :=
    Success.exists_of_mem_right linked.worlds (Array.mem_toList_iff.mpr member)
  obtain ⟨side, inSide⟩ := Graph.mem_entries_iff.mp listed
  obtain ⟨named, -, isKey, -⟩ := Success.exists_of_mem_right
    (forall₂_of_linkItems (side_of_linkWorld isLinked side)) inSide
  rw [isKey, text_keyOf]
  exact keyOf_eq_interface_iff

/-! ### Definitions and functions -/

theorem kinds_of_isWritable (writable : graph.IsWritable) {id : TypeId} {kind : TypeKind}
    (found : graph.kind? id = some kind) : kind ≠ .unknown ∧ ∀ target, kind ≠ .pointer target := by
  obtain ⟨type, isType, rfl⟩ := Option.map_eq_some_iff.mp found
  have writableKind := (show TypeDef.IsWritable type from writable .type id type isType).kind
  constructor
  · intro isUnknown
    rw [isUnknown] at writableKind
    exact writableKind
  · intro target isPointer
    rw [isPointer] at writableKind
    exact writableKind

theorem isWritable_of_function? (writable : graph.IsWritable) {place : FunctionPlace}
    {function : Function} (found : graph.function? place = some function) : function.IsWritable := by
  cases place with
  | interface id name =>
    obtain ⟨interface, held, listed⟩ := Graph.function?_interface_iff.mp found
    have isWritable : Interface.IsWritable interface := writable .interface id interface held
    exact isWritable.functions function ((OrderedMap.mem_values_iff _).mpr ⟨name, listed⟩)
  | world id side key =>
    obtain ⟨world, held, listed⟩ := Graph.function?_world_iff.mp found
    have isWritable : World.IsWritable world := writable .world id world held
    exact isWritable.entries _ (Graph.mem_entries_iff.mpr ⟨side, listed⟩)

theorem results_of_isWritable (writable : graph.IsWritable) {place : FunctionPlace}
    {function : Function} (found : graph.function? place = some function) (type : TypeRef) :
    function.results ≠ .named [⟨"", type⟩] := by
  intro isSingle
  have readable := (isWritable_of_function? writable found).results
  rw [isSingle] at readable
  cases readable

/-! ### Package names -/

theorem Linked.packageNames (linked : document.Linked graph) :
    graph.packageNames.entries
      = graph.packages.toList.zipIdx.map fun (package, index) => (package.name, ⟨index⟩) := by
  obtain ⟨entered, areEntered, entries⟩ :=
    exists_enterNames 0 (nodup_of_enterNames linked.names)
  cases linked.names.symm.trans areEntered
  exact entries

theorem Linked.isBuiltFrom (linked : document.Linked graph) (found : ofJson? json = some document) :
    graph.IsBuiltFrom json where
  entities := linked.entities found
  keys := linked.keys found
  interfaceKeys _ member _ listed := linked.interfaceKeys member listed
  closed := linked.isClosed
  kinds _ _ := kinds_of_isWritable (isWritable_of_ofJson? found linked)
  results _ _ := results_of_isWritable (isWritable_of_ofJson? found linked)
  names := (List.nodup_append.mp (nodup_of_enterNames linked.names)).2.1
  packageNames := linked.packageNames

end Document

namespace Graph

/-! ### Reading -/

/-- **A graph that has been read is built from its document and is consistent.** -/
theorem ofText_isBuiltFrom {text : String} {graph : Graph} (accepted : ofText text = .ok graph) :
    ∃ json, Json.parse? (Text.symbols text) = some json ∧ graph.IsBuiltFrom json := by
  unfold ofText ofSymbols at accepted
  split at accepted
  · cases accepted
  · rename_i document isDocument
    obtain ⟨json, parsed, found⟩ := Option.bind_eq_some_iff.mp isDocument
    exact ⟨json, parsed, (Document.link_eq_ok_iff.mp accepted).isBuiltFrom found⟩

namespace Repeated

/-- The lines of a document with a repeated name among imports, the key of another interface, types in a
circle and a list of one result without a name. -/
def lines : List String := [
  "\x7b\"worlds\":[\x7b\"name\":\"w\",\"package\":0,\"imports\":\x7b",
  "\"interface-1\":\x7b\"interface\":1\x7d,",
  "\"f\":\x7b\"function\":\x7b\"name\":\"f\",\"kind\":\"freestanding\",",
  "\"results\":[\x7b\"type\":1\x7d]\x7d\x7d,",
  "\"interface-0\":\x7b\"interface\":1\x7d,",
  "\"interface-1\":\x7b\"interface\":0\x7d\x7d,",
  "\"exports\":\x7b\"interface-1\":\x7b\"interface\":\x7b\"id\":1\x7d\x7d\x7d\x7d],",
  "\"interfaces\":[\x7b\"name\":\"i\"\x7d,\x7b\"name\":\"j\",\"package\":0\x7d],",
  "\"types\":[\x7b\"name\":\"t\",\"kind\":\x7b\"list\":1\x7d,",
  "\"owner\":\x7b\"interface\":1\x7d\x7d,",
  "\x7b\"name\":\"r\",\"kind\":\x7b\"option\":0\x7d\x7d],",
  "\"packages\":[\x7b\"name\":\"a:b\",\"interfaces\":\x7b\"j\":1\x7d,",
  "\"worlds\":\x7b\"w\":0\x7d\x7d]\x7d"]

/-- The graph that the document describes. The repeated name keeps its first place and its last
interface, of which it is not the key. -/
def graph : Graph where
  worlds := #[
    { name := "w", package := some ⟨0⟩
      imports := .ofList [(.name "interface-1", .interface ⟨0⟩ .unknown),
        (.name "f", .function
          { name := "f", kind := .freestanding, params := [], results := .anonymous (.defined ⟨1⟩) }),
        (.name "interface-0", .interface ⟨1⟩ .unknown)]
      exports := .ofList [(.interface ⟨1⟩, .interface ⟨1⟩ .unknown)] }]
  interfaces := #[{ name := some "i" }, { name := some "j", package := some ⟨0⟩ }]
  types := #[
    { name := some "t", kind := .list (.defined ⟨1⟩), owner := .interface ⟨1⟩ },
    { name := some "r", kind := .option (.defined ⟨0⟩) }]
  packages := #[
    { name := { ns := "a", package := "b" }, interfaces := .ofList [("j", ⟨1⟩)]
      worlds := .ofList [("w", ⟨0⟩)] }]
  packageNames := .ofList [({ ns := "a", package := "b" }, ⟨0⟩)]

theorem accepted : ofText ("\n".intercalate lines) = .ok graph := by
  rw [ofText_intercalate]
  decide +kernel

end Repeated

theorem ofText_isBuiltFrom_repeated :
    ofText ("\n".intercalate Repeated.lines) = .ok Repeated.graph
      ∧ ∃ json, Json.parse? (Text.symbols ("\n".intercalate Repeated.lines)) = some json
        ∧ Repeated.graph.IsBuiltFrom json :=
  ⟨Repeated.accepted, ofText_isBuiltFrom Repeated.accepted⟩

end Graph

end WitGraph
