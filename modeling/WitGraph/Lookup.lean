/-
**Finding packages, worlds, interfaces and functions.**

Worlds and interfaces are found by a pattern: their bare name, their identifier, or their identifier
without its version. `Graph.selectWorld` finds a world from a package and an optional specifier,
which is the name of a world of that package or an identifier with any package. The functions of a
resource are found where the resource is defined.
-/

import WitGraph.Graph.Basic

namespace WitGraph

namespace Graph

/-! ### Names -/

/-- The identifier of an interface; none if it has no name or no package. -/
def interfaceIdent? (graph : Graph) (id : InterfaceId) : Option Ident := do
  let interface ← graph.interface? id
  let package ← graph.package? (← interface.package)
  return package.name.withExtension (← interface.name)

/-- The identifier of an interface, written. -/
def idOf? (graph : Graph) (id : InterfaceId) : Option String :=
  (graph.interfaceIdent? id).map Ident.text

/-- A readable name for a key of a world. -/
def nameOfKey (graph : Graph) : WorldKey → String
  | .name text => text
  | .interface id => (graph.idOf? id).getD (WorldKey.interface id).text

/-- The package with a name. -/
def packageByName? (graph : Graph) (name : Ident) : Option PackageId :=
  graph.packageNames.find? name

/-! ### Patterns -/

/-- Whether a pattern names the world or interface with a name in a package. -/
def matchesItem (graph : Graph) (name : Option String) (package : Option PackageId)
    (pattern : String) : Bool :=
  match name with
  | none => false
  | some name =>
    pattern = name ||
    match package.bind graph.package? with
    | none => false
    | some package =>
      let ident := package.name.withExtension name
      pattern = ident.text || pattern = ident.unversioned.text

/-- Whether a pattern names a world. -/
def matchesWorld (graph : Graph) (pattern : String) (id : WorldId) : Bool :=
  match graph.world? id with
  | none => false
  | some world => graph.matchesItem (some world.name) world.package pattern

/-- Whether a pattern names an interface. -/
def matchesInterface (graph : Graph) (pattern : String) (id : InterfaceId) : Bool :=
  match graph.interface? id with
  | none => false
  | some interface => graph.matchesItem interface.name interface.package pattern

/-- The first world that a pattern names. -/
def matchWorld? (graph : Graph) (pattern : String) : Option WorldId :=
  (graph.ids .world).find? (graph.matchesWorld pattern)

/-- The first interface that a pattern names. -/
def matchInterface? (graph : Graph) (pattern : String) : Option InterfaceId :=
  (graph.ids .interface).find? (graph.matchesInterface pattern)

end Graph

/-! ### Selecting a world -/

/-- Why no world is selected. -/
inductive SelectFault where
  /-- The package has no worlds. -/
  | noWorlds (package : Ident)
  /-- The package has several worlds and none has been chosen. -/
  | severalWorlds (package : Ident)
  /-- The specifier has a colon and is no identifier. -/
  | invalidSpecifier (specifier : String) (fault : IdentFault)
  /-- The specifier names a package only. -/
  | missingName (specifier : String)
  | unknownPackage (package : Ident)
  | noSuchWorld (name : String) (package : Ident)
  /-- There is no such package in the graph. -/
  | noSuchPackage (id : PackageId)
deriving DecidableEq, Repr

/-- The messages from the outermost to the innermost. -/
def SelectFault.chain : SelectFault → List String
  | .noWorlds package => [s!"no worlds found in package `{package.text}`"]
  | .severalWorlds package =>
    [s!"multiple worlds found in package `{package.text}`: one must be explicitly chosen"]
  | .invalidSpecifier specifier fault =>
    [s!"failed to parse world specifier `{specifier}`", fault.message]
  | .missingName specifier => [s!"world specifier `{specifier}` is missing a world name"]
  | .unknownPackage package => [s!"unknown package `{package.text}`"]
  | .noSuchWorld name package => [s!"no world named `{name}` in package `{package.text}`"]
  | .noSuchPackage id => [s!"package index {id.index} is out of bounds"]

namespace Graph

/-- The package with an id, which must be there. -/
def selectPackage (graph : Graph) (id : PackageId) : Except SelectFault Package :=
  match graph.package? id with
  | some package => .ok package
  | none => .error (.noSuchPackage id)

/-- The only world of a package. -/
def onlyWorld (package : Package) : Except SelectFault WorldId :=
  match package.worlds.values with
  | [] => .error (.noWorlds package.name)
  | [world] => .ok world
  | _ :: _ :: _ => .error (.severalWorlds package.name)

/-- The world with a name in a package. -/
def namedWorld (package : Package) (name : String) : Except SelectFault WorldId :=
  match package.worlds.find? name with
  | some world => .ok world
  | none => .error (.noSuchWorld name package.name)

/-- The world that an identifier specifies. -/
def specifiedWorld (graph : Graph) (specifier : String) : Except SelectFault WorldId :=
  match Ident.parse specifier with
  | .error fault => .error (.invalidSpecifier specifier fault)
  | .ok ident =>
    match ident.extension with
    | none => .error (.missingName specifier)
    | some name =>
      match graph.packageByName? ident.packageName with
      | none => .error (.unknownPackage ident.packageName)
      | some id => do namedWorld (← graph.selectPackage id) name

/-- The world that is meant by an optional specifier with a package at hand. -/
def selectWorld (graph : Graph) (package : PackageId) : Option String → Except SelectFault WorldId
  | none => do onlyWorld (← graph.selectPackage package)
  | some specifier =>
    if specifier.toList.contains ':' then graph.specifiedWorld specifier
    else do namedWorld (← graph.selectPackage package) specifier

/-! ### Functions of a resource -/

/-- The functions where a type is defined. -/
def ownerFunctions (graph : Graph) : Owner → List Function
  | .interface id => ((graph.interface? id).map (·.functions.values)).getD []
  | .world id => ((graph.world? id).map World.functions).getD []
  | .none => []

/-- The functions of a kind where a resource is defined. -/
def functionsOfKind (graph : Graph) (resource : TypeId) (kind : FunctionKind TypeId) :
    List Function :=
  match graph.type? resource with
  | none => []
  | some type => (graph.ownerFunctions type.owner).filter fun function => function.kind = kind

/-- Functions sorted by name, those of one name in the order given. -/
def sortByName (functions : List Function) : List Function :=
  functions.mergeSort fun first second => first.name ≤ second.name

/-- The constructor of a resource. -/
def constructor? (graph : Graph) (resource : TypeId) : Option Function :=
  (graph.functionsOfKind resource (.constructor resource)).head?

/-- The methods of a resource, sorted by name. -/
def methods (graph : Graph) (resource : TypeId) : List Function :=
  sortByName (graph.functionsOfKind resource (.method resource))

/-- The static functions of a resource, sorted by name. -/
def staticFunctions (graph : Graph) (resource : TypeId) : List Function :=
  sortByName (graph.functionsOfKind resource (.static resource))

/-! ### Parts of the graph -/

/-- The functions of all worlds and then of all interfaces. -/
def functions (graph : Graph) : List Function :=
  graph.worlds.toList.flatMap World.functions
    ++ graph.interfaces.toList.flatMap (·.functions.values)

/-- The stability of an import or export, which for a type is that of its definition. -/
def itemStability (graph : Graph) : WorldItem → Stability
  | .interface _ stability => stability
  | .function function => function.stability
  | .type id => ((graph.type? id).map TypeDef.stability).getD .unknown

end Graph

end WitGraph
