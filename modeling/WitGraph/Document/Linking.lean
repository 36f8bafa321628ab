/-
**From documents to graphs.**

`Document.link` follows the references of a document. Items keep their positions, so references may
point forwards, backwards or in circles; each must be within its arena. The work is done in a fixed
order, and the first defect found is reported: package names, types, interfaces, worlds, the
contents of packages, and last the names that two packages share.

* A world key is the interface itself if it is spelled `interface-` and the position of the very
  interface that stands under it, and a name otherwise.
* A list of results with one entry without a name is an anonymous result.
-/

import WitGraph.Document.Fault
import WitGraph.Document.Reading
import WitGraph.Graph.Basic

namespace WitGraph

namespace Document

/-- How many items each arena of the document holds. -/
def size (document : Document) : Arena → Nat
  | .package => document.packages.length
  | .world => document.worlds.length
  | .interface => document.interfaces.length
  | .type => document.types.length

/-! ### References -/

/-- The id at a position, which must be within the arena. -/
def linkId (document : Document) (arena : Arena) (index : Nat) : Except Fault (Id arena) :=
  if index < document.size arena then .ok ⟨index⟩ else fail (.outOfBounds arena index)

/-- An optional package. -/
def linkPackage? (document : Document) : Option Nat → Except Fault (Option PackageId)
  | none => .ok none
  | some index => do return some (← document.linkId .package index)

/-- A use of a type. -/
def linkRef (document : Document) : Ref → Except Fault TypeRef
  | .index index => do return .defined (← document.linkId .type index)
  | .name name =>
    match Primitive.ofName? name with
    | some type => .ok (.primitive type)
    | none => fail (.unknownType name)

/-- A map whose values are replaced in order. -/
def linkMap {α β : Type} (link : String → α → Except Fault β) (map : OrderedMap String α) :
    Except Fault (OrderedMap String β) := do
  let entries ← map.entries.mapM fun entry => do return (entry.1, ← link entry.1 entry.2)
  return .ofList entries

/-- A map of positions in an arena. -/
def linkIndices (document : Document) (arena : Arena) (map : OrderedMap String Nat) :
    Except Fault (OrderedMap String (Id arena)) :=
  linkMap (fun _ index => document.linkId arena index) map

/-! ### Types -/

/-- The owner of a type. -/
def linkOwner (document : Document) : Option OwnerRecord → Except Fault Owner
  | some (.world index) => do return .world (← document.linkId .world index)
  | some (.interface index) => do return .interface (← document.linkId .interface index)
  | none => .ok .none

/-- A type definition. -/
def linkType (document : Document) (type : TypeRecord) : Except Fault TypeDef := do
  let owner ← document.linkOwner type.owner
  let kind ← type.kind.mapM (document.linkId .type) document.linkRef
  return { name := type.name, kind, owner, docs := type.docs, stability := type.stability }

/-! ### Functions -/

/-- How a function belongs to a resource. -/
def linkFunctionKind (document : Document) :
    FunctionKind Nat → Except Fault (FunctionKind TypeId)
  | .freestanding => .ok .freestanding
  | .method index => do return .method (← document.linkId .type index)
  | .static index => do return .static (← document.linkId .type index)
  | .constructor index => do return .constructor (← document.linkId .type index)

/-- Parameters or results. -/
def linkParams (document : Document) (params : List (Param Ref)) :
    Except Fault (List (Param TypeRef)) :=
  params.mapM fun param => do return { name := param.name, type := ← document.linkRef param.type }

/-- The results that a list stands for. -/
def Results.ofList : List (Param TypeRef) → Results
  | [param] => if param.name = "" then .anonymous param.type else .named [param]
  | params => .named params

/-- The results of a function. -/
def linkResults (document : Document) :
    Option Ref → Option (List (Param Ref)) → Except Fault Results
  | some _, some _ => fail .twoResults
  | some type, none => do return .anonymous (← document.linkRef type)
  | none, some params => do return Results.ofList (← document.linkParams params)
  | none, none => .ok (.named [])

/-- A function. -/
def linkFunction (document : Document) (function : FunctionRecord) : Except Fault Function := do
  let kind ← document.linkFunctionKind function.kind
  let params ← document.linkParams function.params
  let results ← document.linkResults function.result function.results
  return {
    name := function.name, kind, params, results, docs := function.docs
    stability := function.stability }

/-! ### Interfaces -/

/-- An interface. -/
def linkInterface (document : Document) (interface : InterfaceRecord) : Except Fault Interface := do
  let types ← document.linkIndices .type interface.types
  let functions ← linkMap
    (fun name function => within (.function name) (document.linkFunction function))
    interface.functions
  let package ← document.linkPackage? interface.package
  return {
    name := interface.name, types, functions, docs := interface.docs
    stability := interface.stability, package }

/-! ### Worlds -/

/-- An import or export. -/
def linkItem (document : Document) : ItemRecord → Except Fault WorldItem
  | .interface index stability => do
    return .interface (← document.linkId .interface index) stability
  | .function function => do return .function (← document.linkFunction function)
  | .type (.index index) => do return .type (← document.linkId .type index)
  | .type (.name name) => fail (.primitiveItem name)

/-- The key that a text stands for above an import or export. -/
def keyOf (text : String) : WorldItem → WorldKey
  | .interface id _ => if text = (WorldKey.interface id).text then .interface id else .name text
  | _ => .name text

/-- The imports or exports of a world. -/
def linkItems (document : Document) (items : OrderedMap String ItemRecord) :
    Except Fault (OrderedMap WorldKey WorldItem) := do
  let entries ← items.entries.mapM fun entry => do
    let item ← within (.item entry.1) (document.linkItem entry.2)
    return (keyOf entry.1 item, item)
  return .ofList entries

/-- A world. -/
def linkWorld (document : Document) (world : WorldRecord) : Except Fault World := do
  let imports ← within .imports (document.linkItems world.imports)
  let exports ← within .exports (document.linkItems world.exports)
  let package ← document.linkPackage? world.package
  return {
    name := world.name, imports, exports, package, docs := world.docs
    stability := world.stability }

/-! ### Packages -/

/-- A package whose name has been read. -/
def linkPackage (document : Document) (name : Ident) (package : PackageRecord) :
    Except Fault Package := do
  let interfaces ← document.linkIndices .interface package.interfaces
  let worlds ← document.linkIndices .world package.worlds
  return { name, docs := package.docs, interfaces, worlds }

/-! ### Whole documents -/

/-- Links the elements of a list from position `start` on. -/
def linkAll {α β : Type} (arena : Arena) (link : α → Except Fault β) :
    Nat → List α → Except Fault (List β)
  | _, [] => .ok []
  | start, element :: rest => do
    let first ← within (.element arena start) (link element)
    let others ← linkAll arena link (start + 1) rest
    return first :: others

/-- Reads the names of packages from position `start` on. -/
def readNames : Nat → List PackageRecord → Except DecodeFault (List Ident)
  | _, [] => .ok []
  | start, package :: rest =>
    match Ident.parse package.name with
    | .error fault => .error (.packageName start package.name fault)
    | .ok name => do return name :: (← readNames (start + 1) rest)

/-- The fault of an element as a fault of the document. -/
def lift {α : Type} : Except Fault α → Except DecodeFault α
  | .ok value => .ok value
  | .error fault => .error (.element fault)

end Document

namespace Graph

/-- Enters packages from position `start` on into a map by name. A name that is there already is
reported, with the map in which the later package has taken its place. -/
def enterNames (names : OrderedMap Ident PackageId) :
    Nat → List Package → OrderedMap Ident PackageId × Option Ident
  | _, [] => (names, none)
  | start, package :: rest =>
    let entered := names.insert package.name ⟨start⟩
    if names.contains package.name then (entered, some package.name)
    else enterNames entered (start + 1) rest

/-- The graph with its packages entered by name, and the first name that two of them share. -/
def indexPackageNames (graph : Graph) : Graph × Option Ident :=
  let (packageNames, repeated) := enterNames {} 0 graph.packages.toList
  ({ graph with packageNames }, repeated)

end Graph

namespace Document

/-- The graph that a document describes. -/
def link (document : Document) : Except DecodeFault Graph := do
  let names ← readNames 0 document.packages
  let types ← lift (linkAll .type document.linkType 0 document.types)
  let interfaces ← lift (linkAll .interface document.linkInterface 0 document.interfaces)
  let worlds ← lift (linkAll .world document.linkWorld 0 document.worlds)
  let packages ← lift (linkAll .package (fun package => document.linkPackage package.1 package.2) 0
    (names.zip document.packages))
  let graph : Graph := {
    worlds := worlds.toArray, interfaces := interfaces.toArray, types := types.toArray
    packages := packages.toArray }
  match graph.indexPackageNames with
  | (graph, none) => return graph
  | (_, some name) => throw (.repeatedPackage name)

end Document

namespace Graph

/-- Reads a graph from the symbols of a document. -/
def ofSymbols (symbols : List Text.Symbol) : Except DecodeFault Graph :=
  match Document.ofSymbols? symbols with
  | none => .error .malformed
  | some document => document.link

/-- Reads a graph from the text of a document. -/
def ofText (text : String) : Except DecodeFault Graph :=
  ofSymbols (Text.symbols text)

/-- Reads a graph from the bytes of a document. -/
def ofBytes (bytes : List UInt8) : Except DecodeFault Graph :=
  ofSymbols (Text.decode bytes)

end Graph

end WitGraph
