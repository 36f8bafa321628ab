/-
**Functions.**

A function has parameters and either one unnamed result or a list of named ones, and it may belong
to a resource as a method, a static function or the constructor. Names of functions that belong to
a resource are written with the name of the resource, as in `[method]blob.read`; `itemName` and
`baseName` take the part that names the function within its resource.

`Function.mentionedIds` lists the definitions that a function refers to in the order resource,
parameters, results; `Function.signatureIds` leaves out the resource of methods and constructors,
whose signatures mention it themselves.
-/

import WitGraph.Graph.Annotation
import WitGraph.Graph.TypeRef
import WitGraph.Text.Cut

namespace WitGraph

/-- How a function belongs to a resource. -/
inductive FunctionKind (ι : Type) where
  | freestanding
  | method (resource : ι)
  | static (resource : ι)
  | constructor (resource : ι)
deriving DecidableEq, Repr

/-- A parameter or a named result. -/
structure Param (ρ : Type) where
  name : String
  type : ρ
deriving DecidableEq, Repr

/-- What a function returns. -/
inductive Results where
  | named (results : List (Param TypeRef))
  /-- One result without a name. -/
  | anonymous (type : TypeRef)
deriving DecidableEq, Repr

/-- A function. -/
structure Function where
  name : String
  kind : FunctionKind TypeId
  params : List (Param TypeRef)
  results : Results
  docs : Docs := {}
  stability : Stability := .unknown
deriving DecidableEq, Repr

namespace FunctionKind

/-- The resource that the function belongs to. -/
def resource? {ι : Type} : FunctionKind ι → Option ι
  | .freestanding => none
  | .method id | .static id | .constructor id => some id

/-- The function is a method. -/
def isMethod {ι : Type} : FunctionKind ι → Bool
  | .method _ => true
  | _ => false

/-- The function is static. -/
def isStatic {ι : Type} : FunctionKind ι → Bool
  | .static _ => true
  | _ => false

/-- The kind with its id renamed. -/
def rename (via : Renaming) : FunctionKind TypeId → FunctionKind TypeId
  | .freestanding => .freestanding
  | .method id => .method (via id)
  | .static id => .static (via id)
  | .constructor id => .constructor (via id)

end FunctionKind

namespace Results

/-- The types of the results in order. -/
def types : Results → List TypeRef
  | .named results => results.map Param.type
  | .anonymous type => [type]

/-- How many results there are. -/
def size : Results → Nat
  | .named results => results.length
  | .anonymous _ => 1

/-- The results with their ids renamed. -/
def rename (via : Renaming) : Results → Results
  | .named results => .named (results.map fun param => { param with type := param.type.rename via })
  | .anonymous type => .anonymous (type.rename via)

end Results

namespace Function

/-! ### Names -/

/-- The part of a name after its first dot, or the whole name. -/
def afterDot (name : String) : String :=
  match Text.cutFirst '.' name.toList with
  | (_, some rest) => String.ofList rest
  | (_, none) => name

/-- The name of the function within its resource. -/
def itemName (function : Function) : String :=
  match function.kind with
  | .freestanding => function.name
  | .method _ | .static _ => afterDot function.name
  | .constructor _ => "constructor"

/-- The beginnings that mark functions with a role of their own, and the names of these roles. -/
def roles : List (String × String) :=
  [("[constructor]", "constructor"), ("[resource-new]", "resource-new"),
    ("[resource-rep]", "resource-rep"), ("[resource-drop]", "resource-drop"),
    ("[dtor]", "destructor")]

/-- What stands before the name of a function in the name of its clean-up function. -/
def cleanUpMark : String := "cabi_post_"

/-- Whether a name begins with `beginning`. -/
def startsWith (name beginning : String) : Bool :=
  beginning.toList.isPrefixOf name.toList

/-- The name of the function without its resource, functions with a role being named for it. -/
def baseName (function : Function) : String :=
  match roles.find? fun role => startsWith function.name role.1 with
  | some role => role.2
  | none =>
    if startsWith function.name cleanUpMark then
      String.ofList (function.name.toList.drop cleanUpMark.length) ++ "-post-return"
    else afterDot function.name

/-- Whether the function serves the handling of resources and results and has not been declared. -/
def isAdministrative (function : Function) : Bool :=
  (function.kind.isStatic && startsWith function.name "[resource-new]") ||
  (function.kind.isMethod &&
    ["[resource-rep]", "[resource-drop]", "[dtor]"].any (startsWith function.name)) ||
  startsWith function.name cleanUpMark

/-! ### References -/

/-- The types of the parameters and then of the results. -/
def types (function : Function) : List TypeRef :=
  function.params.map Param.type ++ function.results.types

/-- The definitions that the function refers to: its resource, its parameters, its results. -/
def mentionedIds (function : Function) : List TypeId :=
  function.kind.resource?.toList ++ function.types.filterMap TypeRef.id?

/-- The resource of a static function. -/
def staticResource? (function : Function) : Option TypeId :=
  match function.kind with
  | .static id => some id
  | _ => none

/-- The definitions that the signature of the function needs. -/
def signatureIds (function : Function) : List TypeId :=
  function.staticResource?.toList ++ function.types.filterMap TypeRef.id?

/-- The function with its ids renamed. -/
def rename (via : Renaming) (function : Function) : Function :=
  { function with
    kind := function.kind.rename via
    params := function.params.map fun param => { param with type := param.type.rename via }
    results := function.results.rename via }

end Function

end WitGraph
