/-
**Writing JSON.**

`Json.render` writes a value in a given style: `indented` puts every item and member on a line of
its own, two spaces deeper than the line it is in, and `compact` writes no blanks at all. In both
an empty array or object is written without a break. Inside strings the quote, the backslash and
the control characters below U+0020 are escaped and nothing else is.
-/

import WitGraph.Json.Basic

namespace WitGraph.Json

/-! ### Scalars -/

/-- A code unit below U+0020 as an escape with four digits. -/
def controlEscape (char : Char) : List Char :=
  ['\\', 'u', '0', '0', Nat.digitChar (char.toNat / 16), Nat.digitChar (char.toNat % 16)]

/-- A character as it stands in a string literal. -/
def escapeChar (char : Char) : List Char :=
  match char with
  | '"' => ['\\', '"']
  | '\\' => ['\\', '\\']
  | '\x08' => ['\\', 'b']
  | '\x0c' => ['\\', 'f']
  | '\n' => ['\\', 'n']
  | '\r' => ['\\', 'r']
  | '\t' => ['\\', 't']
  | _ => if char.toNat < 0x20 then controlEscape char else [char]

/-- A text as a string literal. -/
def quote (text : String) : String :=
  String.ofList ('"' :: text.toList.flatMap escapeChar ++ ['"'])

/-- The spelling of an exponent. -/
def exponentText : Option (Bool × List Char) → List Char
  | none => []
  | some (negative, digits) => 'e' :: (if negative then ['-'] else []) ++ digits

/-- The spelling of a number. -/
def numberText (number : Number) : String :=
  String.ofList <| (if number.negative then ['-'] else []) ++ number.whole
    ++ (if number.fraction.isEmpty then [] else '.' :: number.fraction)
    ++ exponentText number.exponent

/-! ### Layout -/

/-- How arrays and objects are laid out. -/
structure Style where
  /-- What separates the parts at a depth from what stands before them. -/
  newline : Nat → String
  /-- What stands between a key and its value. -/
  colon : String

/-- Every part on a line of its own, two spaces per level. -/
def indented : Style where
  newline depth := String.ofList ('\n' :: List.replicate (2 * depth) ' ')
  colon := ": "

/-- No blanks. -/
def compact : Style where
  newline _ := ""
  colon := ":"

/-- The parts of an array or object between its brackets. -/
def bracketed (style : Style) (depth : Nat) (opening closing : String) (parts : List String) :
    String :=
  if parts.isEmpty then opening ++ closing
  else
    let newline := style.newline (depth + 1)
    opening ++ newline ++ ("," ++ newline).intercalate parts ++ style.newline depth ++ closing

mutual

/-- A value whose line is at `depth`. -/
def renderAt (style : Style) (depth : Nat) : Json → String
  | .null => "null"
  | .bool value => if value then "true" else "false"
  | .number spelled => numberText spelled
  | .string contents => quote (contents.getD "")
  | .array items => bracketed style depth "[" "]" (renderItems style (depth + 1) items)
  | .object members => bracketed style depth "\x7b" "\x7d" (renderMembers style (depth + 1) members)

/-- The items of an array. -/
def renderItems (style : Style) (depth : Nat) : List Json → List String
  | [] => []
  | item :: rest => renderAt style depth item :: renderItems style depth rest

/-- The members of an object. -/
def renderMembers (style : Style) (depth : Nat) : List (Contents × Json) → List String
  | [] => []
  | member :: rest => renderMember style depth member :: renderMembers style depth rest

/-- A key and its value. -/
def renderMember (style : Style) (depth : Nat) : Contents × Json → String
  | (key, value) => quote (key.getD "") ++ style.colon ++ renderAt style depth value

end

/-- Writes a value. -/
def render (style : Style) (value : Json) : String :=
  renderAt style 0 value

end WitGraph.Json
