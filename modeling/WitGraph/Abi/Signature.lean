/-
**Core signatures of functions.**

A function is passed its parameters as their flat forms, or as one pointer to them if there are more
than `maxParams` entries. Its result is returned as its flat form if that has at most `maxResults`
entries. Otherwise it is stored in memory: an imported function is passed one more pointer, to
where it has to be stored, and an exported function returns a pointer to where it has been stored.
The first parameter of an exported method, if it is an `i32`, is a pointer to the representation of
its resource.
-/

import WitGraph.Abi.Flattening

namespace WitGraph

/-- From which side a function is called. -/
inductive AbiSide where
  /-- The component imports and calls the function. -/
  | imported
  /-- The component defines and exports the function. -/
  | exported
deriving DecidableEq, Repr

/-- A core signature. -/
structure Signature where
  params : List CoreType
  results : List CoreType
  /-- All parameters are passed behind one pointer. -/
  indirectParams : Bool
  /-- The results are stored in memory. -/
  returnPointer : Bool
deriving DecidableEq, Repr

namespace Signature

/-- The most entries of the parameters that are passed directly. -/
def maxParams : Nat := 16

/-- The most entries of the results that are returned directly. -/
def maxResults : Nat := 1

/-- The parameters with the first one, if it is an `i32`, as a pointer to a representation. -/
def withRepresentation : List CoreType → List CoreType
  | .i32 :: rest => .pointer :: rest
  | params => params

/-- The parameters as they are passed, `flat` being their flat forms. -/
def passed (side : AbiSide) (isMethod : Bool) (flat : List CoreType) : List CoreType :=
  if flat.length > maxParams then [.pointer]
  else if isMethod && side = .exported then withRepresentation flat
  else flat

/-- The signature for the flat forms of parameters and results. -/
def ofFlat (side : AbiSide) (isMethod : Bool) (params results : List CoreType) : Signature :=
  let direct := passed side isMethod params
  let indirectParams : Bool := params.length > maxParams
  if results.length > maxResults then
    match side with
    | .imported => {
        params := direct ++ [.pointer], results := [], indirectParams, returnPointer := true }
    | .exported => {
        params := direct, results := [.pointer], indirectParams, returnPointer := true }
  else { params := direct, results, indirectParams, returnPointer := false }

end Signature

/-- The core signature of a function. -/
def Graph.signature (graph : Graph) (side : AbiSide) (function : Function) :
    Except AbiFault Signature := do
  let params ← graph.flatAll (function.params.map Param.type)
  let results ← graph.flatAll function.results.types
  return .ofFlat side function.kind.isMethod params results

end WitGraph
