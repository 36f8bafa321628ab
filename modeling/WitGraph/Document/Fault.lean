/-
**What is wrong with a document.**

A text that cannot be read as a document is `malformed`. A document that can be read may still have
a package whose name is no identifier, a defect in one of its elements, or two packages of one name.
A defect in an element has a `path` of places that leads to it, the outermost first, and a `Defect`
at its end. `DecodeFault.chain` words a fault by one message per place and one for the defect;
`DecodeFault.detail?` goes one step further where there is more to say.
-/

import WitGraph.Graph.Id
import WitGraph.Ident

namespace WitGraph

namespace Document

/-- What can be wrong with an element. -/
inductive Defect where
  /-- There is no item at the position in the arena. -/
  | outOfBounds (arena : Arena) (index : Nat)
  /-- No primitive type has the name. -/
  | unknownType (name : String)
  /-- An import or export of a type names a primitive type instead of a definition. -/
  | primitiveItem (name : String)
  /-- A function states its result in both ways. -/
  | twoResults
deriving DecidableEq, Repr

/-- A place in a document, within the one before it. -/
inductive Place where
  | element (arena : Arena) (index : Nat)
  | imports
  | exports
  | item (key : String)
  | function (name : String)
deriving DecidableEq, Repr

/-- A defect and the places that lead to it. -/
structure Fault where
  path : List Place
  defect : Defect
deriving DecidableEq, Repr

/-- The wording of a defect. -/
def Defect.message : Defect → String
  | .outOfBounds arena index => s!"{arena.noun} index {index} is out of bounds"
  | .unknownType name => s!"unknown type `{name}`"
  | .primitiveItem name => s!"world items must refer to a type definition, found `{name}`"
  | .twoResults => "function has both `result` and `results`"

/-- The wording of a place. -/
def Place.message : Place → String
  | .element arena index => s!"failed to decode {arena.noun} {index}"
  | .imports => "invalid import"
  | .exports => "invalid export"
  | .item key => s!"failed to decode `{key}`"
  | .function name => s!"failed to decode function `{name}`"

/-- Reports a defect. -/
def fail {α : Type} (defect : Defect) : Except Fault α :=
  .error { path := [], defect }

/-- Puts a place in front of the path of a fault. -/
def within {α : Type} (place : Place) : Except Fault α → Except Fault α
  | .ok value => .ok value
  | .error fault => .error { fault with path := place :: fault.path }

end Document

/-- Why a text is not accepted as a document. -/
inductive DecodeFault where
  | malformed
  | packageName (index : Nat) (name : String) (fault : IdentFault)
  | element (fault : Document.Fault)
  | repeatedPackage (name : Ident)
deriving DecidableEq, Repr

namespace DecodeFault

/-- The messages from the outermost to the innermost. -/
def chain : DecodeFault → List String
  | .malformed => ["failed to parse JSON"]
  | .packageName index name fault => [s!"invalid name `{name}` for package {index}", fault.message]
  | .element fault => fault.path.map Document.Place.message ++ [fault.defect.message]
  | .repeatedPackage name => [s!"package `{name.text}` is defined more than once"]

/-- What can be added to the innermost message. -/
def detail? : DecodeFault → Option String
  | .malformed => some "the text is not well-formed or does not have the shape of a document"
  | .packageName _ _ fault => fault.detail?
  | .element _ | .repeatedPackage _ => none

end DecodeFault

end WitGraph
