/-
**Flat forms.**

The flat form of a type is the list of core types that a value of it is passed as. It is pushed
onto an array that may hold other entries already: records push their fields one after another,
and a variant pushes its tag and then merges each payload into the slots behind the tag, so that
slots that are used by several payloads have the join of their types.

`Graph.flat` is the flat form of a type that does not contain itself. A type that does has none;
the search for it ends when it has gone through more definitions than there are.
-/

import WitGraph.Abi.CoreType
import WitGraph.Abi.Fault
import WitGraph.Graph.Basic

namespace WitGraph

/-- The entries pushed so far. -/
abbrev FlatForm := Array CoreType

namespace FlatForm

/-- Pushes the flat form of a primitive type. -/
def pushPrimitive (flat : FlatForm) : Primitive → FlatForm
  | .bool | .u8 | .u16 | .u32 | .s8 | .s16 | .s32 | .char | .errorContext => flat.push .i32
  | .u64 | .s64 => flat.push .i64
  | .f32 => flat.push .f32
  | .f64 => flat.push .f64
  | .string => (flat.push .pointer).push .i32

/-- Joins a type into a slot, which is the next free one if there is none. -/
def joinAt (flat : FlatForm) (slot : Nat) (type : CoreType) : FlatForm :=
  match flat[slot]? with
  | some present => flat.setIfInBounds slot (present.join type)
  | none => flat.push type

/-- Joins types into the slots from `slot` on. -/
def mergeAt (flat : FlatForm) (slot : Nat) : List CoreType → FlatForm
  | [] => flat
  | type :: rest => mergeAt (flat.joinAt slot type) (slot + 1) rest

end FlatForm

/-- A way to push the flat form of a type. -/
abbrev PushRef := FlatForm → TypeRef → Except AbiFault FlatForm

namespace Kind

/-- Pushes the slots of payloads that share the slots from `start` on. -/
def pushPayloads (push : PushRef) (start : Nat) (flat : FlatForm) (payloads : List TypeRef) :
    Except AbiFault FlatForm :=
  payloads.foldlM (fun flat payload => do return flat.mergeAt start (← push #[] payload).toList)
    flat

/-- Pushes a tag and the slots of the payloads behind it. -/
def pushCases (push : PushRef) (flat : FlatForm) (cases : List (Option TypeRef)) :
    Except AbiFault FlatForm :=
  let tagged := flat.push (.ofInt (.ofCases cases.length))
  pushPayloads push tagged.size tagged (cases.filterMap fun payload => payload)

/-- Pushes the flat form of a kind. -/
def pushFlat (push : PushRef) (flat : FlatForm) : TypeKind → Except AbiFault FlatForm
  | .synonym target => push flat target
  | .own _ | .borrow _ | .resource | .future _ | .stream _ | .errorContext => .ok (flat.push .i32)
  | .pointer _ => .ok (flat.push .pointer)
  | .record fields => fields.foldlM (fun flat field => push flat field.type) flat
  | .tuple types => types.foldlM push flat
  | .flags labels =>
    .ok (flat ++ List.replicate (FlagsShape.wordCount labels.length) CoreType.i32)
  | .list _ => .ok ((flat.push .pointer).push .i32)
  | .variant cases => pushCases push flat (cases.map Case.type)
  | .enum cases => pushCases push flat (cases.map fun _ => none)
  | .option payload => pushCases push flat [none, some payload]
  | .result ok err => pushCases push flat [ok, err]
  | .unknown => .error .noFlatForm

end Kind

namespace Graph

/-- Pushes the flat form of a type, going through at most `depth` definitions. -/
def pushRef (graph : Graph) : Nat → PushRef
  | _, flat, .primitive type => .ok (flat.pushPrimitive type)
  | 0, _, .defined _ => .error .endless
  | depth + 1, flat, .defined id =>
    match graph.kind? id with
    | none => .ok flat
    | some kind => kind.pushFlat (graph.pushRef depth) flat

/-- Pushes the flat form of a type. -/
def pushType (graph : Graph) : PushRef :=
  graph.pushRef graph.types.size

/-- Pushes the flat form of a kind. -/
def pushKind (graph : Graph) (flat : FlatForm) (kind : TypeKind) : Except AbiFault FlatForm :=
  kind.pushFlat graph.pushType flat

/-- The flat form of a type. -/
def flat (graph : Graph) (type : TypeRef) : Except AbiFault (List CoreType) := do
  return (← graph.pushType #[] type).toList

/-- The flat forms of several types after one another. -/
def flatAll (graph : Graph) (types : List TypeRef) : Except AbiFault (List CoreType) := do
  return (← types.foldlM graph.pushType #[]).toList

end Graph

end WitGraph
