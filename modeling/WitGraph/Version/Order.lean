/-
**The precedence of semantic versions.**

`Version.compare` is a total order: the three numbers, then the pre-release identifiers (a release
comes after all its pre-releases), then the build identifiers. Identifiers compare from left to
right and a proper beginning comes first; numeric identifiers compare by value and come before the
others, which compare by character. Among numeric build identifiers of one value the one with fewer
leading zeros comes first.
-/

import WitGraph.Version

namespace WitGraph.Version

/-- The value of an identifier that consists of digits. -/
def numericValue? (identifier : String) : Option Nat :=
  let digits := identifier.toList
  if isNumeric digits then some (Nat.ofDigitChars 10 digits 0) else none

/-- Numeric identifiers by value and before the others, the others by character. -/
def compareIdentifier (first second : String) : Ordering :=
  match numericValue? first, numericValue? second with
  | some left, some right => Ord.compare left right
  | some _, none => .lt
  | none, some _ => .gt
  | none, none => Ord.compare first second

/-- Like `compareIdentifier`, but equal values are told apart by their leading zeros. -/
def compareBuildIdentifier (first second : String) : Ordering :=
  (compareIdentifier first second).then (Ord.compare first.length second.length)

/-- A release comes after its pre-releases. -/
def comparePre : List String → List String → Ordering
  | [], [] => .eq
  | [], _ :: _ => .gt
  | _ :: _, [] => .lt
  | first, second => List.compareLex compareIdentifier first second

/-- The order of versions. -/
def compare (first second : Version) : Ordering :=
  (Ord.compare first.major second.major).then <|
  (Ord.compare first.minor second.minor).then <|
  (Ord.compare first.patch second.patch).then <|
  (comparePre first.pre second.pre).then <|
  List.compareLex compareBuildIdentifier first.build second.build

instance : Ord Version := ⟨compare⟩

end WitGraph.Version
