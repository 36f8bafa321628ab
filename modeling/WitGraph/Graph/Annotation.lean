/-
**Documentation and stability.**

Declarations may carry documentation, and a mark that says since when they are stable or which
feature they are behind.
-/

import WitGraph.Version

namespace WitGraph

/-- The documentation of a declaration. -/
structure Docs where
  contents : Option String := none
deriving DecidableEq, Repr, Inhabited

/-- There is no documentation. -/
def Docs.isEmpty (docs : Docs) : Bool := docs.contents.isNone

/-- How stable a declaration is. -/
inductive Stability where
  /-- Stable since a version, and perhaps deprecated since another. -/
  | stable (since : Version) (deprecated : Option Version)
  /-- Behind a feature, and perhaps deprecated since a version. -/
  | unstable (feature : String) (deprecated : Option Version)
  /-- Nothing is said. -/
  | unknown
deriving DecidableEq, Repr

instance : Inhabited Stability := ⟨.unknown⟩

namespace Stability

/-- Nothing is said about the stability. -/
def isUnknown : Stability → Bool
  | .unknown => true
  | .stable .. | .unstable .. => false

/-- The version in which the declaration became deprecated. -/
def deprecatedIn : Stability → Option Version
  | .stable _ deprecated | .unstable _ deprecated => deprecated
  | .unknown => none

end Stability

end WitGraph
