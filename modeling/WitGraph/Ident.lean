/-
**Identifiers of packages, worlds and interfaces.**

An identifier is `namespace:package`, then optionally `/name` for a world or interface of the
package, then optionally `@version`. `Ident.parse` reads it and `Ident.text` writes it. Each of the
three names may be marked by a leading `%`, which is not part of the name; it is written exactly
before the names in `reservedWords`.

A name is one or more words joined by single hyphens. A word starts with an ASCII letter, goes on
with letters and digits, and never has an upper-case and a lower-case letter side by side.
`checkName` finds the first place where a text departs from this.
-/

import WitGraph.Text.Escape
import WitGraph.Version

namespace WitGraph

/-- What keeps a text from being an identifier. -/
inductive IdentFault where
  /-- Nothing stands before the colon. -/
  | missingNamespace
  /-- Nothing stands after the colon, or there is no colon. -/
  | missingPackage
  /-- Nothing stands after the slash. -/
  | missingExtension
  /-- The text after the at sign is no version. -/
  | invalidVersion (version : String)
  /-- A character may not stand where it does in the name. -/
  | invalidChar (name : String) (char : Char)
  | leadingHyphen (name : String)
  | doubleHyphen (name : String)
  | trailingHyphen (name : String)
deriving DecidableEq, Repr

/-- The wording of a fault. -/
def IdentFault.message : IdentFault → String
  | .missingNamespace => "missing package namespace"
  | .missingPackage => "missing package name"
  | .missingExtension => "missing name after `/`"
  | .invalidVersion version => s!"invalid version `{version}`"
  | .invalidChar name char => s!"invalid character {Text.quotedChar char} in `{name}`"
  | .leadingHyphen name => s!"invalid leading `-` in `{name}`"
  | .doubleHyphen name => s!"invalid double `--` in `{name}`"
  | .trailingHyphen name => s!"invalid trailing `-` in `{name}`"

/-- What can be added to the message of a fault. -/
def IdentFault.detail? : IdentFault → Option String
  | .invalidVersion _ => some "the text is not a semantic version"
  | _ => none

/-- The identifier of a package, or of a world or interface in a package. -/
structure Ident where
  /-- The namespace of the package, such as `wasi`. -/
  ns : String
  /-- The name of the package in its namespace. -/
  package : String
  /-- The name of a world or interface of the package. -/
  extension : Option String := none
  /-- The version of the package. -/
  version : Option Version := none
deriving DecidableEq, Repr

namespace Ident

/-! ### Names -/

/-- The fault of `char` right after `previous` (nothing at the start) within `name`. -/
def charFault? (name : String) (previous : Option Char) (char : Char) : Option IdentFault :=
  if char.isLower then
    if previous.any Char.isUpper then some (.invalidChar name char) else none
  else if char.isUpper then
    if previous.any Char.isLower then some (.invalidChar name char) else none
  else if char.isDigit then
    if previous.any Char.isAlphanum then none else some (.invalidChar name char)
  else if char = '-' then
    match previous with
    | none => some (.leadingHyphen name)
    | some '-' => some (.doubleHyphen name)
    | some _ => none
  else some (.invalidChar name char)

/-- Checks the characters of `name` that follow `previous`. -/
def checkNameFrom (name : String) : Option Char → List Char → Except IdentFault Unit
  | previous, [] => if previous = some '-' then .error (.trailingHyphen name) else .ok ()
  | previous, char :: rest =>
    match charFault? name previous char with
    | some fault => .error fault
    | none => checkNameFrom name (some char) rest

/-- Checks that a nonempty text is a name. -/
def checkName (name : String) : Except IdentFault Unit :=
  checkNameFrom name none name.toList

/-- A name without its leading mark. -/
def unmark : List Char → List Char
  | '%' :: name => name
  | name => name

/-! ### Reading -/

/-- Reads the part after the at sign. -/
def parseVersion : Option (List Char) → Except IdentFault (Option Version)
  | none => .ok none
  | some text =>
    match Version.parseChars? text with
    | some version => .ok (some version)
    | none => .error (.invalidVersion (String.ofList text))

/-- Checks the part after the slash. -/
def checkExtension : Option String → Except IdentFault Unit
  | none => .ok ()
  | some name => if name = "" then .error .missingExtension else checkName name

/-- Reads an identifier. A bad version is reported first, then a missing namespace or package, then
the first faulty name. -/
def parse (text : String) : Except IdentFault Ident := do
  let (named, version) := Text.cutLast '@' text.toList
  let version ← parseVersion version
  let (qualified, extension) := Text.cutFirst '/' named
  let extension := extension.map fun name => String.ofList (unmark name)
  let (ns, package) := Text.cutFirst ':' qualified
  let ns := String.ofList (unmark ns)
  let package := String.ofList ((package.map unmark).getD [])
  if ns = "" then throw .missingNamespace
  if package = "" then throw .missingPackage
  checkName ns
  checkName package
  checkExtension extension
  return { ns, package, extension, version }

/-- The identifier that a text denotes, if it denotes one. -/
def parse? (text : String) : Option Ident :=
  (parse text).toOption

/-! ### Writing -/

/-- The names that have a meaning of their own in interface definitions. -/
def reservedWords : List String :=
  ["as", "async", "bool", "borrow", "char", "constructor", "enum", "error-context", "export",
    "f32", "f64", "flags", "float32", "float64", "from", "func", "future", "import", "include",
    "interface", "list", "option", "own", "package", "record", "resource", "result", "s16", "s32",
    "s64", "s8", "static", "stream", "string", "tuple", "type", "u16", "u32", "u64", "u8", "use",
    "variant", "with", "world"]

/-- A name as it is written, marked if it is a reserved word. -/
def nameText (name : String) : String :=
  if name ∈ reservedWords then "%" ++ name else name

/-- The written name of the world or interface, with its slash. -/
def extensionText : Option String → String
  | none => ""
  | some name => "/" ++ nameText name

/-- The written version, with its at sign. -/
def versionText : Option Version → String
  | none => ""
  | some version => "@" ++ version.text

/-- Writes an identifier. -/
def text (ident : Ident) : String :=
  nameText ident.ns ++ ":" ++ nameText ident.package ++ extensionText ident.extension
    ++ versionText ident.version

instance : ToString Ident := ⟨text⟩

/-! ### Related identifiers -/

/-- The identifier of the world or interface called `name` in the same package. -/
def withExtension (ident : Ident) (name : String) : Ident :=
  { ident with extension := some name }

/-- The identifier without its version. -/
def unversioned (ident : Ident) : Ident :=
  { ident with version := none }

/-- The identifier of the package itself. -/
def packageName (ident : Ident) : Ident :=
  { ident with extension := none }

end Ident

end WitGraph
