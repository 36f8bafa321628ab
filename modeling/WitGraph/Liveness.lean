/-
**Live types.**

Types that something needs are live. `LiveTypes` collects them: adding a type adds everything that
it refers to as well, and `LiveTypes.order` lists each type after the types that it refers to, as
far as circles allow. Adding more only appends to the order.
-/

import WitGraph.Graph.Basic
import WitGraph.Search.DepthFirst

namespace WitGraph

instance : Numbered TypeId where
  number id := id.index
  injective {first second} equal := by cases first; cases second; simp_all

namespace Graph

/-- The definitions that a type refers to. -/
def directIds (graph : Graph) (id : TypeId) : List TypeId :=
  match graph.kind? id with
  | none => []
  | some kind => kind.directIds

/-- The definitions that an interface needs: its types, then those of its functions. -/
def interfaceTypeIds (graph : Graph) (id : InterfaceId) : List TypeId :=
  match graph.interface? id with
  | none => []
  | some interface =>
    interface.types.values ++ interface.functions.values.flatMap Function.signatureIds

/-- The definitions that an import or export needs. -/
def itemTypeIds (graph : Graph) : WorldItem → List TypeId
  | .interface id _ => graph.interfaceTypeIds id
  | .function function => function.signatureIds
  | .type id => [id]

end Graph

/-- The types found to be live. -/
structure LiveTypes where
  progress : Progress TypeId := {}

namespace LiveTypes

/-- The live types, each after those that it refers to. -/
def order (live : LiveTypes) : List TypeId := live.progress.finished.reverse

/-- How many types are live. -/
def size (live : LiveTypes) : Nat := live.progress.finished.length

/-- Whether a type is live. -/
def contains (live : LiveTypes) (id : TypeId) : Bool := live.progress.hasEntered id

/-- Adds definitions and everything that they refer to. -/
def addAll (graph : Graph) (live : LiveTypes) (ids : List TypeId) : LiveTypes :=
  ⟨Search.visitAll graph.directIds (graph.types.size + 1) live.progress ids⟩

/-- Adds a definition and everything that it refers to. -/
def addType (graph : Graph) (live : LiveTypes) (id : TypeId) : LiveTypes :=
  live.addAll graph [id]

/-- Adds everything that an interface needs. -/
def addInterface (graph : Graph) (live : LiveTypes) (id : InterfaceId) : LiveTypes :=
  live.addAll graph (graph.interfaceTypeIds id)

/-- Adds everything that an import or export needs. -/
def addItem (graph : Graph) (live : LiveTypes) (item : WorldItem) : LiveTypes :=
  live.addAll graph (graph.itemTypeIds item)

end LiveTypes

/-- All types of a graph, each after those that it refers to. -/
def Graph.typeOrder (graph : Graph) : List TypeId :=
  (LiveTypes.addAll graph {} (graph.ids .type)).order

end WitGraph
