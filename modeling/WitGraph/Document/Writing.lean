/-
**Writing graphs as documents.**

`Graph.toJson` writes a graph in the form that is read back. Fields stand in a fixed order; absent
names, packages, owners and payloads are written as `null`, while documentation, stability and the
names of parameters are left out when they are empty. A function states its result as `result` when
it has no name, as `results` when there is a list of some, and not at all when there are none.
-/

import WitGraph.Graph.Basic
import WitGraph.Json.Printer

namespace WitGraph

/-! ### Annotations -/

/-- An id, as its position. -/
def Id.toJson {arena : Arena} (id : Id arena) : Json := .nat id.index

/-- An optional id. -/
def Id.optionToJson {arena : Arena} (id : Option (Id arena)) : Json :=
  .ofOption (id.map Id.toJson)

/-- Documentation. -/
def Docs.toJson (docs : Docs) : Json :=
  .record [("contents", .ofOption (docs.contents.map Json.text))]

/-- The documentation of a declaration, if there is any. -/
def Docs.members (docs : Docs) : List (String × Json) :=
  if docs.isEmpty then [] else [("docs", docs.toJson)]

/-- The version of a deprecation, if there is one. -/
def Stability.deprecatedMembers : Option Version → List (String × Json)
  | none => []
  | some version => [("deprecated", .text version.text)]

/-- A mark of stability. -/
def Stability.toJson : Stability → Json
  | .stable since deprecated =>
    .record [("stable", .record (("since", .text since.text) :: deprecatedMembers deprecated))]
  | .unstable feature deprecated =>
    .record [("unstable", .record (("feature", .text feature) :: deprecatedMembers deprecated))]
  | .unknown => .text "unknown"

/-- The stability of a declaration, if anything is said. -/
def Stability.members (stability : Stability) : List (String × Json) :=
  if stability.isUnknown then [] else [("stability", stability.toJson)]

/-! ### Types -/

/-- A use of a type. -/
def TypeRef.toJson : TypeRef → Json
  | .primitive type => .text type.name
  | .defined id => id.toJson

/-- An optional use of a type. -/
def TypeRef.optionToJson (type : Option TypeRef) : Json :=
  .ofOption (type.map TypeRef.toJson)

/-- A field of a record type. -/
def Field.toJson (field : Field TypeRef) : Json :=
  .record ([("name", .text field.name), ("type", field.type.toJson)] ++ field.docs.members)

/-- A case of a variant. -/
def Case.toJson (case : Case TypeRef) : Json :=
  .record ([("name", .text case.name), ("type", TypeRef.optionToJson case.type)]
    ++ case.docs.members)

/-- A flag or a case of an enum. -/
def Label.toJson (label : Label) : Json :=
  .record (("name", .text label.name) :: label.docs.members)

/-- The kind of a type. -/
def Kind.toJson : TypeKind → Json
  | .record fields => .record [("record", .record [("fields", .array (fields.map Field.toJson))])]
  | .resource => .text "resource"
  | .own id => .record [("handle", .record [("own", id.toJson)])]
  | .borrow id => .record [("handle", .record [("borrow", id.toJson)])]
  | .flags labels => .record [("flags", .record [("flags", .array (labels.map Label.toJson))])]
  | .tuple types => .record [("tuple", .record [("types", .array (types.map TypeRef.toJson))])]
  | .variant cases => .record [("variant", .record [("cases", .array (cases.map Case.toJson))])]
  | .enum cases => .record [("enum", .record [("cases", .array (cases.map Label.toJson))])]
  | .option payload => .record [("option", payload.toJson)]
  | .result ok err =>
    .record [("result", .record [("ok", TypeRef.optionToJson ok),
      ("err", TypeRef.optionToJson err)])]
  | .list element => .record [("list", element.toJson)]
  | .future payload => .record [("future", TypeRef.optionToJson payload)]
  | .stream payload => .record [("stream", TypeRef.optionToJson payload)]
  | .errorContext => .text "error-context"
  | .pointer target => .record [("pointer", target.toJson)]
  | .synonym target => .record [("type", target.toJson)]
  | .unknown => .text "unknown"

/-- The owner of a type. -/
def Owner.toJson : Owner → Json
  | .world id => .record [("world", id.toJson)]
  | .interface id => .record [("interface", id.toJson)]
  | .none => .null

/-- A type definition. -/
def TypeDef.toJson (type : TypeDef) : Json :=
  .record <| [("name", .ofOption (type.name.map Json.text)), ("kind", type.kind.toJson),
      ("owner", type.owner.toJson)]
    ++ type.docs.members ++ type.stability.members

/-! ### Functions -/

/-- How a function belongs to a resource. -/
def FunctionKind.toJson : FunctionKind TypeId → Json
  | .freestanding => .text "freestanding"
  | .method id => .record [("method", id.toJson)]
  | .static id => .record [("static", id.toJson)]
  | .constructor id => .record [("constructor", id.toJson)]

/-- A parameter or named result. -/
def Param.toJson (param : Param TypeRef) : Json :=
  .record <| (if param.name = "" then [] else [("name", .text param.name)])
    ++ [("type", param.type.toJson)]

/-- The statement of the results of a function. -/
def Results.members : Results → List (String × Json)
  | .anonymous type => [("result", type.toJson)]
  | .named [] => []
  | .named results => [("results", .array (results.map Param.toJson))]

/-- A function. -/
def Function.toJson (function : Function) : Json :=
  .record <| [("name", .text function.name), ("kind", function.kind.toJson),
      ("params", .array (function.params.map Param.toJson))]
    ++ function.results.members ++ function.docs.members ++ function.stability.members

/-! ### Worlds, interfaces and packages -/

/-- A map. -/
def OrderedMap.toJson {κ ν : Type} (key : κ → String) (value : ν → Json)
    (map : OrderedMap κ ν) : Json :=
  .record (map.entries.map fun entry => (key entry.1, value entry.2))

/-- A map of ids by name. -/
def Id.mapToJson {arena : Arena} (map : OrderedMap String (Id arena)) : Json :=
  map.toJson (fun name => name) Id.toJson

/-- An import or export. -/
def WorldItem.toJson : WorldItem → Json
  | .interface id stability =>
    .record [("interface", .record (("id", id.toJson) :: stability.members))]
  | .function func => .record [("function", func.toJson)]
  | .type id => .record [("type", id.toJson)]

/-- A world. -/
def World.toJson (world : World) : Json :=
  .record <| [("name", .text world.name),
      ("imports", world.imports.toJson WorldKey.text WorldItem.toJson),
      ("exports", world.exports.toJson WorldKey.text WorldItem.toJson),
      ("package", Id.optionToJson world.package)]
    ++ world.docs.members ++ world.stability.members

/-- An interface. -/
def Interface.toJson (interface : Interface) : Json :=
  .record <| [("name", .ofOption (interface.name.map Json.text)),
      ("types", Id.mapToJson interface.types),
      ("functions", interface.functions.toJson (fun name => name) Function.toJson)]
    ++ interface.docs.members ++ interface.stability.members
    ++ [("package", Id.optionToJson interface.package)]

/-- A package. -/
def Package.toJson (package : Package) : Json :=
  .record <| ("name", .text package.name.text) :: package.docs.members
    ++ [("interfaces", Id.mapToJson package.interfaces), ("worlds", Id.mapToJson package.worlds)]

namespace Graph

/-- A graph as a document. -/
def toJson (graph : Graph) : Json :=
  .record [("worlds", .array (graph.worlds.toList.map World.toJson)),
    ("interfaces", .array (graph.interfaces.toList.map Interface.toJson)),
    ("types", .array (graph.types.toList.map TypeDef.toJson)),
    ("packages", .array (graph.packages.toList.map Package.toJson))]

/-- A graph as the text of a document. -/
def text (graph : Graph) : String :=
  graph.toJson.render Json.indented

end Graph

end WitGraph
