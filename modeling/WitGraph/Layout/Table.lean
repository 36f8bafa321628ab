/-
**The layout of all types of a graph.**

A `LayoutTable` gives every type definition its extent. `LayoutTable.ofGraph` fills it in the order
in which every type comes after those that it refers to, so that the extent of a type is computed
from extents that are already final; on a circle, the extent of nothing stands in for a type that
has not been reached yet. There is no table if a sum fails on the way, and none for unknown kinds.
-/

import WitGraph.Layout.Extent
import WitGraph.Liveness

namespace WitGraph

/-- The extents of type definitions, and the arithmetic that they are computed with. -/
structure LayoutTable where
  arithmetic : Arithmetic
  extents : Array Extent

namespace LayoutTable

/-- The extent of a type definition. -/
def extentOfId (table : LayoutTable) (id : TypeId) : Extent :=
  (table.extents[id.index]?).getD .empty

/-- The extent of a type. -/
def extent (table : LayoutTable) : TypeRef → Extent
  | .primitive type => .ofPrimitive type
  | .defined id => table.extentOfId id

/-- The extents of the payloads of some cases. -/
def payloads (table : LayoutTable) (types : List (Option TypeRef)) : List Extent :=
  (types.filterMap fun type => type).map table.extent

/-- The extent of a variant with one case for each optional payload. -/
def variant (table : LayoutTable) (types : List (Option TypeRef)) : Except AbiFault Extent :=
  Extent.variant table.arithmetic (.ofCases types.length) (table.payloads types)

/-- The extent of a kind, computed from the table. -/
def calculate (table : LayoutTable) : TypeKind → Except AbiFault Extent
  | .synonym target => .ok (table.extent target)
  | .list _ => .ok .slice
  | .pointer _ => .ok .pointer
  | .record fields =>
    Extent.record table.arithmetic (fields.map fun field => table.extent field.type)
  | .tuple types => Extent.record table.arithmetic (types.map table.extent)
  | .flags labels => Extent.ofFlags table.arithmetic labels.length
  | .variant cases => table.variant (cases.map Case.type)
  | .enum cases => table.variant (cases.map fun _ => none)
  | .option payload => table.variant [none, some payload]
  | .result ok err => table.variant [ok, err]
  | .own _ | .borrow _ | .resource | .future _ | .stream _ | .errorContext => .ok .handle
  | .unknown => .error .noLayout

/-- The table in which no type has been laid out yet. -/
def blank (arithmetic : Arithmetic) (graph : Graph) : LayoutTable where
  arithmetic := arithmetic
  extents := Array.replicate graph.types.size .empty

/-- The table with the extent of one type computed anew. -/
def enter (graph : Graph) (table : LayoutTable) (id : TypeId) : Except AbiFault LayoutTable :=
  match graph.kind? id with
  | none => .ok table
  | some kind => do
    let extent ← table.calculate kind
    return { table with extents := table.extents.setIfInBounds id.index extent }

/-- The layout of all types of a graph. -/
def ofGraph (arithmetic : Arithmetic) (graph : Graph) : Except AbiFault LayoutTable :=
  graph.typeOrder.foldlM (enter graph) (blank arithmetic graph)

end LayoutTable

/-- The layout of all types of a graph in words of 64 bits, if all sums that it takes are words. -/
def Graph.layout (graph : Graph) : Except AbiFault LayoutTable :=
  LayoutTable.ofGraph .word graph

end WitGraph
