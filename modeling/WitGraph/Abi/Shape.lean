/-
**The shape of a variant.**

Among the payload types of a variant, `variantShape` picks the one whose layout represents them:
the largest, of these rather one that is not `bool`, of these rather one with a pointer, of these
the first. `variantAlign` picks the first of those with the greatest alignment.
-/

import WitGraph.Abi.Traits
import WitGraph.Layout.Table

namespace WitGraph.Graph

/-- Orders `true` before `false`. -/
def trueFirst (first second : Bool) : Ordering :=
  match first, second with
  | true, false => .lt
  | false, true => .gt
  | _, _ => .eq

/-- The order of preference for the shape of a variant. -/
def compareShape (graph : Graph) (table : LayoutTable) (first second : TypeRef) : Ordering :=
  (compare (table.extent second).size (table.extent first).size).then <|
  (trueFirst (!graph.isBool first) (!graph.isBool second)).then <|
  trueFirst (graph.hasPointer first) (graph.hasPointer second)

/-- The type whose layout represents the payloads of a variant. -/
def variantShape (graph : Graph) (table : LayoutTable) (types : List TypeRef) : Option TypeRef :=
  (types.mergeSort fun first second => (graph.compareShape table first second).isLE).head?

/-- The first type with the greatest alignment. -/
def variantAlign (table : LayoutTable) (types : List TypeRef) : Option TypeRef :=
  (types.mergeSort fun first second =>
    (table.extent second).align ≤ (table.extent first).align).head?

end WitGraph.Graph
