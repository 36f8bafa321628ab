/-
**Semantic versions.**

A version is three numbers, then optional pre-release identifiers after `-`, then optional build
identifiers after `+`. `Version.parse?` accepts exactly the texts of Semantic Versioning 2.0 whose
numbers fit 64 bits; `Version.text` writes a version back. Absent identifiers are the empty list:
a list that is present has at least one identifier, and no identifier is empty.
-/

import WitGraph.Text.Cut

namespace WitGraph

/-- A semantic version. -/
structure Version where
  major : Nat
  minor : Nat
  patch : Nat
  /-- The identifiers after `-`; none for a release. -/
  pre : List String
  /-- The identifiers after `+`; none if there is no build metadata. -/
  build : List String
deriving DecidableEq, Repr

namespace Version

/-- Version numbers are below this bound. -/
def numberLimit : Nat := UInt64.size

/-- All characters are decimal digits. -/
def isNumeric (identifier : List Char) : Bool :=
  identifier.all Char.isDigit

/-- More than one digit, the first of them zero. -/
def hasLeadingZero (digits : List Char) : Bool :=
  digits.head? == some '0' && digits.length != 1

/-- Reads one of the three numbers: digits without a leading zero, within the limit. -/
def parseNumber? (digits : List Char) : Option Nat :=
  if digits.isEmpty || !isNumeric digits || hasLeadingZero digits then none
  else
    let number := Nat.ofDigitChars 10 digits 0
    if number < numberLimit then some number else none

/-- The characters of an identifier: ASCII letters, digits and the hyphen. -/
def isIdentifierChar (char : Char) : Bool :=
  char.isAlphanum || char == '-'

/-- An identifier of build metadata: one or more identifier characters. -/
def isBuildIdentifier (identifier : List Char) : Bool :=
  !identifier.isEmpty && identifier.all isIdentifierChar

/-- A pre-release identifier: a numeric one must not have a leading zero. -/
def isPreIdentifier (identifier : List Char) : Bool :=
  isBuildIdentifier identifier && !(isNumeric identifier && hasLeadingZero identifier)

/-- Reads identifiers separated by dots, each of which must be `valid`. -/
def parseIdentifiers? (valid : List Char → Bool) (text : List Char) : Option (List String) :=
  let identifiers := Text.segments '.' text
  if identifiers.all valid then some (identifiers.map String.ofList) else none

/-- Reads an optional list of identifiers, an absent one being empty. -/
def parseOptional? (valid : List Char → Bool) : Option (List Char) → Option (List String)
  | none => some []
  | some text => parseIdentifiers? valid text

/-- Reads a version from characters. -/
def parseChars? (text : List Char) : Option Version := do
  let (unbuilt, build) := Text.cutFirst '+' text
  let (numbers, pre) := Text.cutFirst '-' unbuilt
  match Text.segments '.' numbers with
  | [major, minor, patch] =>
    return {
      major := ← parseNumber? major
      minor := ← parseNumber? minor
      patch := ← parseNumber? patch
      pre := ← parseOptional? isPreIdentifier pre
      build := ← parseOptional? isBuildIdentifier build }
  | _ => none

/-- Reads a version. -/
def parse? (text : String) : Option Version :=
  parseChars? text.toList

/-- A mark followed by the identifiers, or nothing if there are none. -/
def identifiersText (mark : String) (identifiers : List String) : String :=
  if identifiers.isEmpty then "" else mark ++ ".".intercalate identifiers

/-- The pre-release part without its mark. -/
def preText (version : Version) : String :=
  ".".intercalate version.pre

/-- The build part without its mark. -/
def buildText (version : Version) : String :=
  ".".intercalate version.build

/-- Writes a version. -/
def text (version : Version) : String :=
  s!"{version.major}.{version.minor}.{version.patch}" ++ identifiersText "-" version.pre
    ++ identifiersText "+" version.build

instance : ToString Version := ⟨text⟩

end Version

end WitGraph
