/-
**Values of the document format.**

Documents are JSON texts. `Json` keeps what reading a document depends on and an ordinary value
type would lose: the members of an object in order, repeated ones included, the spelling of
numbers, and whether the contents of a string are text at all (a string literal may hold escapes of
lone surrogates or bytes that are no characters).
-/

namespace WitGraph

/-- The contents of a string literal; `none` if they are not text. -/
abbrev Contents := Option String

/-- A number as it is spelled. -/
structure Number where
  /-- Whether a minus sign stands in front. -/
  negative : Bool := false
  /-- The digits before the point. -/
  whole : List Char
  /-- The digits after the point; none if there is no point. -/
  fraction : List Char := []
  /-- Whether the exponent is negative, and its digits. -/
  exponent : Option (Bool × List Char) := none
deriving DecidableEq, Repr

/-- A JSON value. -/
inductive Json where
  | null
  | bool (value : Bool)
  | number (spelled : Number)
  | string (contents : Contents)
  | array (items : List Json)
  | object (members : List (Contents × Json))
deriving Repr, Inhabited

namespace Json

/-- A string literal of a text. -/
def text (value : String) : Json := .string (some value)

/-- The decimal spelling of a natural number. -/
def nat (value : Nat) : Json := .number { whole := Nat.toDigits 10 value }

/-- An object from members whose keys are text. -/
def record (members : List (String × Json)) : Json :=
  .object (members.map fun member => (some member.1, member.2))

/-- The value of an optional part, `null` if it is absent. -/
def ofOption : Option Json → Json
  | none => .null
  | some value => value

end Json

end WitGraph
