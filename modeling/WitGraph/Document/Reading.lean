/-
**Reading documents.**

Each record has a function that reads it from JSON, in the shapes that `Json.Shape` describes: the
list of names in a call of `fields?` is the fixed order of the fields, and a field that is read by
`required?` must be present. `Document.ofSymbols?` reads a whole document.

Most values are read as they come. An interface reference is either a bare index or an object, and
is read as a whole to tell the two apart; `itemDepth` is how many arrays and objects stand around it,
and all together may nest `maxDepth` deep.
-/

import WitGraph.Document.Record
import WitGraph.Json.Reader
import WitGraph.Json.Shape

namespace WitGraph.Document

open Json (Fields)

/-! ### Annotations -/

/-- Reads documentation. -/
def readDocs? (value : Json) : Option Docs := do
  let fields ← value.fields? ["contents"]
  return { contents := ← fields.nullable? "contents" Json.text? }

/-- Reads a version. -/
def readVersion? (value : Json) : Option Version :=
  value.text?.bind Version.parse?

/-- Reads a mark of stability. -/
def readStability? (value : Json) : Option Stability := do
  match ← value.alternative? with
  | ("stable", some contents) =>
    let fields ← contents.fields? ["since", "deprecated"]
    return .stable (← fields.required? "since" readVersion?)
      (← fields.nullable? "deprecated" readVersion?)
  | ("unstable", some contents) =>
    let fields ← contents.fields? ["feature", "deprecated"]
    return .unstable (← fields.required? "feature" Json.text?)
      (← fields.nullable? "deprecated" readVersion?)
  | ("unknown", contents) => if Json.isUnit contents then some .unknown else none
  | _ => none

/-- The documentation among some fields. -/
def docsOf? (fields : Fields) : Option Docs :=
  fields.optional? "docs" readDocs? {}

/-- The stability among some fields. -/
def stabilityOf? (fields : Fields) : Option Stability :=
  fields.optional? "stability" readStability? .unknown

/-! ### Types -/

/-- Reads a use of a type. -/
def readRef? : Json → Option Ref
  | .number spelled => spelled.index?.map .index
  | .string contents => contents.map .name
  | _ => none

/-- Reads a field of a record type. -/
def readField? (value : Json) : Option (Field Ref) := do
  let fields ← value.fields? ["name", "type", "docs"]
  return {
    name := ← fields.required? "name" Json.text?
    type := ← fields.required? "type" readRef?
    docs := ← docsOf? fields }

/-- Reads a case of a variant. -/
def readCase? (value : Json) : Option (Case Ref) := do
  let fields ← value.fields? ["name", "type", "docs"]
  return {
    name := ← fields.required? "name" Json.text?
    type := ← fields.nullable? "type" readRef?
    docs := ← docsOf? fields }

/-- Reads a flag or a case of an enum. -/
def readLabel? (value : Json) : Option Label := do
  let fields ← value.fields? ["name", "docs"]
  return {
    name := ← fields.required? "name" Json.text?
    docs := ← docsOf? fields }

/-- Reads a handle. -/
def readHandle? (value : Json) : Option (Kind Nat Ref) := do
  match ← value.alternative? with
  | ("own", some contents) => return .own (← contents.index?)
  | ("borrow", some contents) => return .borrow (← contents.index?)
  | _ => none

/-- Reads a record with one field, a list. -/
def readList? {α : Type} (name : String) (read : Json → Option α) (value : Json) :
    Option (List α) := do
  (← value.fields? [name]).required? name (Json.items? read)

/-- Reads the two payloads of a result. -/
def readResult? (value : Json) : Option (Kind Nat Ref) := do
  let fields ← value.fields? ["ok", "err"]
  return .result (← fields.nullable? "ok" readRef?) (← fields.nullable? "err" readRef?)

/-- Reads the kind of a type. -/
def readKind? (value : Json) : Option (Kind Nat Ref) := do
  match ← value.alternative? with
  | ("record", some contents) => return .record (← readList? "fields" readField? contents)
  | ("resource", contents) => if Json.isUnit contents then some .resource else none
  | ("handle", some contents) => readHandle? contents
  | ("flags", some contents) => return .flags (← readList? "flags" readLabel? contents)
  | ("tuple", some contents) => return .tuple (← readList? "types" readRef? contents)
  | ("variant", some contents) => return .variant (← readList? "cases" readCase? contents)
  | ("enum", some contents) => return .enum (← readList? "cases" readLabel? contents)
  | ("option", some contents) => return .option (← readRef? contents)
  | ("result", some contents) => readResult? contents
  | ("list", some contents) => return .list (← readRef? contents)
  | ("future", some contents) => return .future (← Json.nullable? readRef? contents)
  | ("stream", some contents) => return .stream (← Json.nullable? readRef? contents)
  | ("error-context", contents) | ("errorcontext", contents) =>
    if Json.isUnit contents then some .errorContext else none
  | ("type", some contents) => return .synonym (← readRef? contents)
  | _ => none

/-- Reads the owner of a type. -/
def readOwner? (value : Json) : Option OwnerRecord := do
  match ← value.alternative? with
  | ("world", some contents) => return .world (← contents.index?)
  | ("interface", some contents) => return .interface (← contents.index?)
  | _ => none

/-- Reads a type definition. -/
def readType? (value : Json) : Option TypeRecord := do
  let fields ← value.fields? ["name", "kind", "owner", "docs", "stability"]
  return {
    name := ← fields.nullable? "name" Json.text?
    kind := ← fields.required? "kind" readKind?
    owner := ← fields.nullable? "owner" readOwner?
    docs := ← docsOf? fields
    stability := ← stabilityOf? fields }

/-! ### Functions -/

/-- Reads how a function belongs to a resource. -/
def readFunctionKind? (value : Json) : Option (FunctionKind Nat) := do
  match ← value.alternative? with
  | ("freestanding", contents) => if Json.isUnit contents then some .freestanding else none
  | ("method", some contents) => return .method (← contents.index?)
  | ("static", some contents) => return .static (← contents.index?)
  | ("constructor", some contents) => return .constructor (← contents.index?)
  | _ => none

/-- Reads a parameter or result. -/
def readParam? (value : Json) : Option (Param Ref) := do
  let fields ← value.fields? ["name", "type"]
  return {
    name := ← fields.optional? "name" Json.text? ""
    type := ← fields.required? "type" readRef? }

/-- Reads a function. -/
def readFunction? (value : Json) : Option FunctionRecord := do
  let fields ← value.fields?
    ["name", "kind", "params", "result", "results", "docs", "stability"]
  return {
    name := ← fields.required? "name" Json.text?
    kind := ← fields.required? "kind" readFunctionKind?
    params := ← fields.optional? "params" (Json.items? readParam?) []
    result := ← fields.nullable? "result" readRef?
    results := ← fields.nullable? "results" (Json.items? readParam?)
    docs := ← docsOf? fields
    stability := ← stabilityOf? fields }

/-! ### Worlds, interfaces and packages -/

/-- Reads a map. -/
def readMap? {α : Type} (read : Json → Option α) (value : Json) : Option (OrderedMap String α) :=
  (value.entries? read).map OrderedMap.ofList

/-- How deep the arrays and objects of a document may nest where values are read as a whole. -/
def maxDepth : Nat := 127

/-- How many arrays and objects stand around an interface reference: those of the document, the list
of worlds, the world, its imports or exports, and the item. -/
def itemDepth : Nat := 5

/-- Reads an interface reference. -/
def readInterfaceRef? (value : Json) : Option ItemRecord := do
  match value with
  | .number spelled => return .interface (← spelled.index?) .unknown
  | .object _ =>
    if value.isSelfContained (maxDepth - itemDepth) then
      let fields ← value.fields? ["id", "stability"]
      return .interface (← fields.required? "id" Json.index?) (← stabilityOf? fields)
    else none
  | _ => none

/-- Reads an import or export. -/
def readItem? (value : Json) : Option ItemRecord := do
  match ← value.alternative? with
  | ("interface", some contents) => readInterfaceRef? contents
  | ("function", some contents) => return .function (← readFunction? contents)
  | ("type", some contents) => return .type (← readRef? contents)
  | _ => none

/-- Reads a world. -/
def readWorld? (value : Json) : Option WorldRecord := do
  let fields ← value.fields? ["name", "imports", "exports", "package", "docs", "stability"]
  return {
    name := ← fields.required? "name" Json.text?
    imports := ← fields.optional? "imports" (readMap? readItem?) {}
    exports := ← fields.optional? "exports" (readMap? readItem?) {}
    package := ← fields.nullable? "package" Json.index?
    docs := ← docsOf? fields
    stability := ← stabilityOf? fields }

/-- Reads an interface. -/
def readInterface? (value : Json) : Option InterfaceRecord := do
  let fields ← value.fields? ["name", "types", "functions", "package", "docs", "stability"]
  return {
    name := ← fields.nullable? "name" Json.text?
    types := ← fields.optional? "types" (readMap? Json.index?) {}
    functions := ← fields.optional? "functions" (readMap? readFunction?) {}
    package := ← fields.nullable? "package" Json.index?
    docs := ← docsOf? fields
    stability := ← stabilityOf? fields }

/-- Reads a package. -/
def readPackage? (value : Json) : Option PackageRecord := do
  let fields ← value.fields? ["name", "docs", "interfaces", "worlds"]
  return {
    name := ← fields.required? "name" Json.text?
    docs := ← docsOf? fields
    interfaces := ← fields.optional? "interfaces" (readMap? Json.index?) {}
    worlds := ← fields.optional? "worlds" (readMap? Json.index?) {} }

end WitGraph.Document

namespace WitGraph.Document

/-- Reads a document from JSON. -/
def ofJson? (value : Json) : Option Document := do
  let fields ← value.fields? ["worlds", "interfaces", "types", "packages"]
  return {
    worlds := ← fields.optional? "worlds" (Json.items? readWorld?) []
    interfaces := ← fields.optional? "interfaces" (Json.items? readInterface?) []
    types := ← fields.optional? "types" (Json.items? readType?) []
    packages := ← fields.optional? "packages" (Json.items? readPackage?) [] }

/-- Reads a document from symbols. -/
def ofSymbols? (symbols : List Text.Symbol) : Option Document :=
  (Json.parse? symbols).bind ofJson?

end WitGraph.Document
