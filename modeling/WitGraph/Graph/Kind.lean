/-
**Kinds of types.**

A type definition has a `Kind`. Kinds are the same in documents and in graphs except for how they
refer to types, so `Kind ι ρ` leaves open what an id (`ι`, of a resource) and what a reference (`ρ`,
to any type) is. Three traversals see the references of a kind in the order of their declaration:

* `Kind.mentions` lists them, a handle mentioning its resource;
* `Kind.directIds` lists the definitions among them;
* `Kind.rename` replaces the ids, and `Kind.mapM` replaces references that may turn out wrong.

`Kind.despecialize` reduces tuples, enums, options and results to the records and variants that
they are laid out like.
-/

import WitGraph.Graph.Annotation
import WitGraph.Graph.TypeRef

namespace WitGraph

/-- A field of a record. -/
structure Field (ρ : Type) where
  name : String
  type : ρ
  docs : Docs := {}
deriving DecidableEq, Repr

/-- A case of a variant, perhaps with a payload. -/
structure Case (ρ : Type) where
  name : String
  type : Option ρ
  docs : Docs := {}
deriving DecidableEq, Repr

/-- A flag, or a case of an enum. -/
structure Label where
  name : String
  docs : Docs := {}
deriving DecidableEq, Repr

/-- What a type definition defines. -/
inductive Kind (ι ρ : Type) where
  | record (fields : List (Field ρ))
  | resource
  /-- An owned handle of a resource. -/
  | own (resource : ι)
  /-- A borrowed handle of a resource. -/
  | borrow (resource : ι)
  | flags (flags : List Label)
  | tuple (types : List ρ)
  | variant (cases : List (Case ρ))
  | enum (cases : List Label)
  | option (payload : ρ)
  | result (ok : Option ρ) (err : Option ρ)
  | list (element : ρ)
  | future (payload : Option ρ)
  | stream (payload : Option ρ)
  | errorContext
  /-- A pointer into linear memory. No document has it; it describes lowered values. -/
  | pointer (target : ρ)
  /-- Another name for a type. -/
  | synonym (target : ρ)
  /-- Not known yet. -/
  | unknown
deriving DecidableEq, Repr

/-- The kinds in a graph. -/
abbrev TypeKind := Kind TypeId TypeRef

namespace Kind

variable {ι ρ : Type}

/-- The word for the kind. -/
def noun : Kind ι ρ → String
  | .record _ => "record"
  | .resource => "resource"
  | .own _ => "own"
  | .borrow _ => "borrow"
  | .flags _ => "flags"
  | .tuple _ => "tuple"
  | .variant _ => "variant"
  | .enum _ => "enum"
  | .option _ => "option"
  | .result _ _ => "result"
  | .list _ => "list"
  | .future _ => "future"
  | .stream _ => "stream"
  | .errorContext => "error-context"
  | .pointer _ => "pointer"
  | .synonym _ => "type"
  | .unknown => "unknown"

/-! ### Reduction to records and variants -/

/-- The fields that the components of a tuple are laid out like, named by their positions. -/
def positionalFields (types : List ρ) : List (Field ρ) :=
  types.zipIdx.map fun (type, position) => { name := toString position, type }

/-- A case without payload for a label. -/
def bareCase (label : Label) : Case ρ :=
  { name := label.name, type := none, docs := label.docs }

/-- The record or variant that a tuple, enum, option or result is laid out like; any other kind
itself. -/
def despecialize : Kind ι ρ → Kind ι ρ
  | .tuple types => .record (positionalFields types)
  | .enum cases => .variant (cases.map bareCase)
  | .option payload =>
    .variant [{ name := "none", type := none }, { name := "some", type := some payload }]
  | .result ok err => .variant [{ name := "ok", type := ok }, { name := "error", type := err }]
  | kind => kind

/-- Whether the kind is laid out like another one. -/
def isSpecialized : Kind ι ρ → Bool
  | .tuple _ | .enum _ | .option _ | .result _ _ => true
  | _ => false

/-! ### References -/

/-- The types that a kind mentions, in order. -/
def mentions : TypeKind → List TypeRef
  | .synonym type | .list type | .option type | .pointer type => [type]
  | .future payload | .stream payload => payload.toList
  | .own id | .borrow id => [.defined id]
  | .record fields => fields.map Field.type
  | .tuple types => types
  | .variant cases => cases.filterMap Case.type
  | .result ok err => ok.toList ++ err.toList
  | .resource | .flags _ | .enum _ | .errorContext | .unknown => []

/-- The definitions that a kind refers to, in order. -/
def directIds : TypeKind → List TypeId
  | .own id | .borrow id => [id]
  | .record fields => fields.filterMap (·.type.id?)
  | .tuple types => types.filterMap TypeRef.id?
  | .variant cases => cases.filterMap (·.type.bind TypeRef.id?)
  | .result ok err => (ok.bind TypeRef.id?).toList ++ (err.bind TypeRef.id?).toList
  | .synonym type | .list type | .option type | .pointer type => type.id?.toList
  | .future payload | .stream payload => (payload.bind TypeRef.id?).toList
  | .resource | .flags _ | .enum _ | .errorContext | .unknown => []

/-- The kind with its ids renamed. -/
def rename (via : Renaming) : TypeKind → TypeKind
  | .record fields =>
    .record (fields.map fun field => { field with type := field.type.rename via })
  | .resource => .resource
  | .own id => .own (via id)
  | .borrow id => .borrow (via id)
  | .flags labels => .flags labels
  | .tuple types => .tuple (types.map (TypeRef.rename via))
  | .variant cases =>
    .variant (cases.map fun case => { case with type := case.type.map (TypeRef.rename via) })
  | .enum cases => .enum cases
  | .option payload => .option (payload.rename via)
  | .result ok err =>
    .result (ok.map (TypeRef.rename via)) (err.map (TypeRef.rename via))
  | .list element => .list (element.rename via)
  | .future payload => .future (payload.map (TypeRef.rename via))
  | .stream payload => .stream (payload.map (TypeRef.rename via))
  | .errorContext => .errorContext
  | .pointer target => .pointer (target.rename via)
  | .synonym target => .synonym (target.rename via)
  | .unknown => .unknown

/-! ### Replacing references -/

/-- An optional reference replaced. -/
def mapOptionM {m : Type → Type} [Monad m] {σ : Type} (ref : ρ → m σ) :
    Option ρ → m (Option σ)
  | none => pure none
  | some type => do return some (← ref type)

/-- The kind with its ids and references replaced, in order. -/
def mapM {m : Type → Type} [Monad m] {κ σ : Type} (mapId : ι → m κ) (ref : ρ → m σ) :
    Kind ι ρ → m (Kind κ σ)
  | .record fields => do
    return .record (← fields.mapM fun field => do
      return { name := field.name, type := ← ref field.type, docs := field.docs })
  | .resource => return .resource
  | .own id => do return .own (← mapId id)
  | .borrow id => do return .borrow (← mapId id)
  | .flags labels => return .flags labels
  | .tuple types => do return .tuple (← types.mapM ref)
  | .variant cases => do
    return .variant (← cases.mapM fun case => do
      return { name := case.name, type := ← mapOptionM ref case.type, docs := case.docs })
  | .enum cases => return .enum cases
  | .option payload => do return .option (← ref payload)
  | .result ok err => do return .result (← mapOptionM ref ok) (← mapOptionM ref err)
  | .list element => do return .list (← ref element)
  | .future payload => do return .future (← mapOptionM ref payload)
  | .stream payload => do return .stream (← mapOptionM ref payload)
  | .errorContext => return .errorContext
  | .pointer target => do return .pointer (← ref target)
  | .synonym target => do return .synonym (← ref target)
  | .unknown => return .unknown

end Kind

end WitGraph
