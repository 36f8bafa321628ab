/-
**Traits of types.**

Whether a value of a type contains a pointer, a borrowed handle or a resource is decided by going
through the types that it mentions. `Graph.typeRoot` follows synonyms to the definition that they
stand for.
-/

import WitGraph.Graph.Basic

namespace WitGraph.Graph

/-- Whether a type is one of the `primitives`, is of one of the `kinds`, or mentions a type that is,
through at most `depth` definitions. -/
def mentionsWithin (graph : Graph) (primitives : Primitive → Bool) (kinds : TypeKind → Bool) :
    Nat → TypeRef → Bool
  | _, .primitive type => primitives type
  | 0, .defined _ => false
  | depth + 1, .defined id =>
    match graph.kind? id with
    | none => false
    | some kind =>
      kinds kind || kind.mentions.any (graph.mentionsWithin primitives kinds depth)

/-- Whether a value of a type contains a pointer into linear memory. -/
def hasPointer (graph : Graph) (type : TypeRef) : Bool :=
  graph.mentionsWithin (· = .string)
    (fun
      | .list _ | .pointer _ => true
      | _ => false)
    graph.types.size type

/-- Whether a value of a type contains a borrowed handle. -/
def hasBorrow (graph : Graph) (type : TypeRef) : Bool :=
  graph.mentionsWithin (fun _ => false)
    (fun
      | .borrow _ => true
      | _ => false)
    graph.types.size type

/-- Whether a value of a type refers to a resource, itself or by a handle. -/
def hasResource (graph : Graph) (type : TypeRef) : Bool :=
  graph.mentionsWithin (fun _ => false)
    (fun
      | .resource => true
      | _ => false)
    graph.types.size type

/-! ### Synonyms -/

/-- Follows at most `steps` synonyms. -/
def typeRootWithin (graph : Graph) : Nat → TypeId → TypeId
  | 0, id => id
  | steps + 1, id =>
    match graph.kind? id with
    | some (.synonym (.defined next)) => graph.typeRootWithin steps next
    | _ => id

/-- The definition that a chain of synonyms stands for. -/
def typeRoot (graph : Graph) (id : TypeId) : TypeId :=
  graph.typeRootWithin graph.types.size id

/-- The kind of the definition that a type stands for; none for a primitive type. -/
def kindOf? (graph : Graph) : TypeRef → Option TypeKind
  | .primitive _ => none
  | .defined id => graph.kind? (graph.typeRoot id)

/-- Whether a type is `bool` or stands for it. -/
def isBool (graph : Graph) : TypeRef → Bool
  | .primitive type => type = .bool
  | .defined id => graph.kind? (graph.typeRoot id) = some (.synonym (.primitive .bool))

/-- Whether the first parameter of a method is its resource or a borrowed handle of it. -/
def takesItsResource (graph : Graph) (function : Function) : Bool :=
  match function.kind, function.params with
  | .method resource, { name := _, type := .defined id } :: _ =>
    id = resource || graph.kind? id = some (.borrow resource)
  | _, _ => false

end WitGraph.Graph
