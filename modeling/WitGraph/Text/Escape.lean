/-
**Characters and paths in messages.**

Messages show a character between single quotes and a file path between double quotes. Inside, tab,
newline, carriage return, the null character and the backslash are escaped, and so is the quote that
would end the quotation. Characters that leave no mark of their own are written by their code point
in lower-case hexadecimal.
-/

import WitGraph.Text.Printable

namespace WitGraph.Text

/-- The code point of a character as an escape. -/
def codePointEscape (char : Char) : String :=
  "\\u\x7b" ++ String.ofList (Nat.toDigits 16 char.toNat) ++ "\x7d"

/-- A character as it stands between two quotes `quote`. -/
def escaped (quote char : Char) : String :=
  match char with
  | '\x00' => "\\0"
  | '\t' => "\\t"
  | '\r' => "\\r"
  | '\n' => "\\n"
  | '\\' => "\\\\"
  | _ =>
    if char = quote then String.ofList ['\\', char]
    else if isPrintable char then String.ofList [char]
    else codePointEscape char

/-- A character between single quotes. -/
def quotedChar (char : Char) : String :=
  "'" ++ escaped '\'' char ++ "'"

/-- A file path between double quotes. -/
def quotedPath (path : String) : String :=
  "\"" ++ String.join (path.toList.map (escaped '"')) ++ "\""

end WitGraph.Text
