/-
**Documents.**

A `Document` is what a JSON text says before its references have been followed: four lists of
records that refer to each other by position. References to types may also be names of primitive
types. Documents differ from graphs in that references may be wrong, a function may state its result
in two ways, and package names need not be identifiers.
-/

import WitGraph.Graph.Function
import WitGraph.Graph.Kind
import WitGraph.OrderedMap

namespace WitGraph.Document

/-- A use of a type: a position in the list of types, or the name of a primitive type. -/
inductive Ref where
  | index (index : Nat)
  | name (name : String)
deriving DecidableEq, Repr

/-- A function. -/
structure FunctionRecord where
  name : String
  kind : FunctionKind Nat
  params : List (Param Ref) := []
  /-- The only result, without a name. -/
  result : Option Ref := none
  /-- The list of results. -/
  results : Option (List (Param Ref)) := none
  docs : Docs := {}
  stability : Stability := .unknown
deriving DecidableEq, Repr

/-- An import or export of a world. -/
inductive ItemRecord where
  | interface (index : Nat) (stability : Stability)
  | function (function : FunctionRecord)
  | type (type : Ref)
deriving DecidableEq, Repr

/-- A world. -/
structure WorldRecord where
  name : String
  imports : OrderedMap String ItemRecord := {}
  exports : OrderedMap String ItemRecord := {}
  package : Option Nat := none
  docs : Docs := {}
  stability : Stability := .unknown
deriving DecidableEq, Repr

/-- An interface. -/
structure InterfaceRecord where
  name : Option String := none
  types : OrderedMap String Nat := {}
  functions : OrderedMap String FunctionRecord := {}
  package : Option Nat := none
  docs : Docs := {}
  stability : Stability := .unknown
deriving DecidableEq, Repr

/-- Where a type is defined. -/
inductive OwnerRecord where
  | world (index : Nat)
  | interface (index : Nat)
deriving DecidableEq, Repr

/-- A type definition. -/
structure TypeRecord where
  name : Option String := none
  kind : Kind Nat Ref
  owner : Option OwnerRecord := none
  docs : Docs := {}
  stability : Stability := .unknown
deriving DecidableEq, Repr

/-- A package. -/
structure PackageRecord where
  name : String
  docs : Docs := {}
  interfaces : OrderedMap String Nat := {}
  worlds : OrderedMap String Nat := {}
deriving DecidableEq, Repr

end WitGraph.Document

namespace WitGraph

open Document in
/-- The lists of records of a document. -/
structure Document where
  worlds : List WorldRecord := []
  interfaces : List InterfaceRecord := []
  types : List TypeRecord := []
  packages : List PackageRecord := []
deriving DecidableEq, Repr

end WitGraph
