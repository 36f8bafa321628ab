/-
**The shapes of values in documents.**

Documents write their records, alternatives, lists and maps in JSON by fixed conventions, and the
functions here read each of these shapes or fail:

* `fields?` reads a record: an object, whose members may come in any order and among which unknown
  ones are skipped, or an array of the fields in their fixed order, of which the last ones may be
  missing. A known field must not occur twice, and all keys must be text;
* `alternative?` reads one of several alternatives: a bare name, or an object whose only member has
  that name and holds the contents of the alternative;
* `items?` and `members?` read lists and maps.

Some values are read as a whole before it is decided which shape they have. These must be
`isSelfContained`: only so deep, with all strings text and all numbers in range.
-/

import WitGraph.Json.Number

namespace WitGraph.Json

/-! ### Scalars -/

/-- The text of a string. -/
def text? : Json → Option String
  | .string contents => contents
  | _ => none

/-- The index that a number denotes. -/
def index? : Json → Option Nat
  | .number spelled => spelled.index?
  | _ => none

/-- Nothing, or the value read by `read`. -/
def nullable? {α : Type} (read : Json → Option α) : Json → Option (Option α)
  | .null => some none
  | value => (read value).map some

/-! ### Lists and maps -/

/-- The items of an array, each read by `read`. -/
def items? {α : Type} (read : Json → Option α) : Json → Option (List α)
  | .array items => items.mapM read
  | _ => none

/-- A member whose key is text. -/
def keyed? (member : Contents × Json) : Option (String × Json) :=
  member.1.map fun key => (key, member.2)

/-- The members of an object, all of whose keys are text. -/
def members? : Json → Option (List (String × Json))
  | .object members => members.mapM keyed?
  | _ => none

/-- The entries of an object, each value read by `read`. -/
def entries? {α : Type} (read : Json → Option α) (value : Json) : Option (List (String × α)) := do
  (← value.members?).mapM fun member => do return (member.1, ← read member.2)

/-! ### Records -/

/-- The fields of a record that are present. -/
abbrev Fields := List (String × Json)

/-- Reads a record with the given field names. -/
def fields? (names : List String) : Json → Option Fields
  | .array items => if items.length ≤ names.length then some (names.zip items) else none
  | .object members => do
    let known := (← members.mapM keyed?).filter fun member => names.contains member.1
    if (known.map Prod.fst).Nodup then some known else none
  | _ => none

/-- The field `name`, which must be present. -/
def Fields.required? {α : Type} (fields : Fields) (name : String) (read : Json → Option α) :
    Option α :=
  (fields.lookup name).bind read

/-- The field `name`, or `default` if it is absent. -/
def Fields.optional? {α : Type} (fields : Fields) (name : String) (read : Json → Option α)
    (default : α) : Option α :=
  match fields.lookup name with
  | none => some default
  | some value => read value

/-- The field `name`, which may be absent or null. -/
def Fields.nullable? {α : Type} (fields : Fields) (name : String) (read : Json → Option α) :
    Option (Option α) :=
  fields.optional? name (Json.nullable? read) none

/-! ### Alternatives -/

/-- The name of an alternative and its contents, if there are any. -/
def alternative? : Json → Option (String × Option Json)
  | .string contents => contents.map fun name => (name, none)
  | .object [member] => (keyed? member).map fun member => (member.1, some member.2)
  | _ => none

/-- The contents of an alternative that has none. -/
def isUnit : Option Json → Bool
  | none | some .null => true
  | some _ => false

/-! ### Values read as a whole -/

/-- Whether a value nests arrays and objects at most `depth` deep, with all strings text and all
numbers in range. -/
def isSelfContained (depth : Nat) : Json → Bool
  | .null | .bool _ => true
  | .number spelled => spelled.isInRange
  | .string contents => contents.isSome
  | .array items =>
    match depth with
    | 0 => false
    | depth + 1 => items.all (isSelfContained depth)
  | .object members =>
    match depth with
    | 0 => false
    | depth + 1 => members.all fun member => member.1.isSome && isSelfContained depth member.2

end WitGraph.Json
