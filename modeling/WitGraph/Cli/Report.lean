/-
**What the commands print.**

The listing names all packages with their interfaces and worlds, and for each world its imports and
exports. The report on representations gives, for each interface, the layout and flat form of its
types and the core signatures of its functions, and for each world the signatures of the functions
that it imports and exports. Keywords and names are coloured if a `Palette` says so.
-/

import WitGraph.Abi.Signature
import WitGraph.Layout.Table
import WitGraph.Lookup

namespace WitGraph.Cli

/-- How keywords and names are written. -/
structure Palette where
  keyword : String → String
  name : String → String

namespace Palette

/-- The escape sequence with some parameters. -/
def escape (parameters : String) : String :=
  "\x1b[" ++ parameters ++ "m"

/-- Without colours. -/
def plain : Palette where
  keyword text := text
  name text := text

/-- Keywords in magenta and names in bold. -/
def ansi : Palette where
  keyword text := escape "0" ++ escape "35" ++ text ++ escape "0"
  name text := escape "0" ++ escape "1" ++ text ++ escape "0"

end Palette

/-- Lines of output. -/
def unlines (lines : List String) : String :=
  String.join (lines.map (· ++ "\n"))

/-! ### Listing -/

/-- The line of an import or export. -/
def entryLine (palette : Palette) (graph : Graph) (word : String) (entry : WorldKey × WorldItem) :
    String :=
  let name := graph.nameOfKey entry.1
  let name := match entry.2 with
    | .type _ => "type " ++ name
    | _ => name
  "    " ++ palette.keyword word ++ " " ++ name

/-- The lines of a world under a name. -/
def worldLines (palette : Palette) (graph : Graph) (entry : String × WorldId) : List String :=
  ("  " ++ palette.keyword "world" ++ " " ++ entry.1) ::
    match graph.world? entry.2 with
    | none => []
    | some world =>
      world.imports.entries.map (entryLine palette graph "import")
        ++ world.exports.entries.map (entryLine palette graph "export")

/-- The lines of a package. -/
def packageLines (palette : Palette) (graph : Graph) (package : Package) : List String :=
  (palette.keyword "package" ++ " " ++ palette.name package.name.text) ::
    package.interfaces.keys.map (fun name => "  " ++ palette.keyword "interface" ++ " " ++ name)
    ++ package.worlds.entries.flatMap (worldLines palette graph)

/-- The listing of a graph. -/
def listing (palette : Palette) (graph : Graph) : String :=
  unlines (graph.packages.toList.flatMap (packageLines palette graph))

/-! ### Representations -/

/-- Core types separated by commas. -/
def coreTypes (types : List CoreType) : String :=
  ", ".intercalate (types.map CoreType.name)

/-- A signature as parameters and results. -/
def signatureText (graph : Graph) (side : AbiSide) (function : Function) :
    Except AbiFault String := do
  let signature ← graph.signature side function
  return s!"({coreTypes signature.params}) -> ({coreTypes signature.results})"

/-- The name of an interface in a report. -/
def interfaceTitle (graph : Graph) (id : InterfaceId) : String :=
  let named := (graph.interface? id).bind Interface.name
  ((graph.idOf? id).or named).getD (WorldKey.interface id).text

/-- The name of a world in a report. -/
def worldTitle (graph : Graph) (world : World) : String :=
  match world.package.bind graph.packageName? with
  | some package => (package.withExtension world.name).text
  | none => world.name

/-- The line of a type. -/
def typeLine (palette : Palette) (graph : Graph) (table : LayoutTable) (entry : String × TypeId) :
    Except AbiFault String := do
  let type := TypeRef.defined entry.2
  let extent := table.extent type
  let flat ← graph.flat type
  return "  " ++ palette.keyword "type"
    ++ s!" {entry.1}: size {extent.size}, align {extent.align}, flat [{coreTypes flat}]"

/-- The line of a function of an interface. -/
def functionLine (palette : Palette) (graph : Graph) (function : Function) :
    Except AbiFault String := do
  let imported ← signatureText graph .imported function
  let exported ← signatureText graph .exported function
  return "  " ++ palette.keyword "func"
    ++ s!" {function.name}: import {imported}, export {exported}"

/-- The report on an interface. -/
def interfaceReport (palette : Palette) (graph : Graph) (table : LayoutTable) (id : InterfaceId) :
    Except AbiFault (List String) := do
  match graph.interface? id with
  | none => return []
  | some interface =>
    let types ← interface.types.entries.mapM (typeLine palette graph table)
    let functions ← interface.functions.values.mapM (functionLine palette graph)
    let title := palette.keyword "interface" ++ " " ++ palette.name (interfaceTitle graph id)
    return title :: (types ++ functions)

/-- The lines of the functions that a world imports or exports. -/
def entryReport (palette : Palette) (graph : Graph) (side : AbiSide) (word : String)
    (entry : WorldKey × WorldItem) : Except AbiFault (List String) :=
  match entry.2 with
  | .function function => do
    let signature ← signatureText graph side function
    return ["  " ++ palette.keyword word ++ s!" {graph.nameOfKey entry.1}: {signature}"]
  | _ => return []

/-- The report on a world. -/
def worldReport (palette : Palette) (graph : Graph) (id : WorldId) :
    Except AbiFault (List String) := do
  match graph.world? id with
  | none => return []
  | some world =>
    let imports ← world.imports.entries.mapM (entryReport palette graph .imported "import")
    let exports ← world.exports.entries.mapM (entryReport palette graph .exported "export")
    let title := palette.keyword "world" ++ " " ++ palette.name (worldTitle graph world)
    return title :: (imports ++ exports).flatten

/-- What a report or a pruning is about. -/
inductive Target where
  | world (id : WorldId)
  | interface (id : InterfaceId)
deriving DecidableEq, Repr

/-- The report on a world, on an interface, or on all interfaces and then all worlds. -/
def abiReport (palette : Palette) (graph : Graph) (table : LayoutTable) :
    Option Target → Except AbiFault String
  | some (.world id) => do return unlines (← worldReport palette graph id)
  | some (.interface id) => do return unlines (← interfaceReport palette graph table id)
  | none => do
    let interfaces ← (graph.ids .interface).mapM (interfaceReport palette graph table)
    let worlds ← (graph.ids .world).mapM (worldReport palette graph)
    return unlines (interfaces ++ worlds).flatten

end WitGraph.Cli
