/-
**How identifiers are spelled.**

An identifier is spelled as a namespace, a colon and a package, then optionally a slash and an
extension, then optionally an at sign and a version (`Spelling`). Each of the three names may be marked.

Reading cuts a text at the last at sign, at the first slash before it and at the first colon before
that. These cuts find the parts of a valid spelling, whose names contain no separator and no mark, and
whose version contains no at sign. So `Ident.parse` accepts exactly the texts that have a valid
spelling; the spelling is unique and its parts are those of the identifier (`parse_iff_spelling`).
-/

import WitGraph.Proofs.Ident.Names
import WitGraph.Proofs.Success
import WitGraph.Proofs.Version

namespace WitGraph.Ident

/-! ### Names with and without a mark -/

/-- A name, marked or not. -/
structure SpelledName where
  isMarked : Bool
  name : String
deriving DecidableEq, Repr

namespace SpelledName

/-- The name as it is written. -/
def chars (spelled : SpelledName) : List Char :=
  (if spelled.isMarked then ['%'] else []) ++ spelled.name.toList

/-- The only spelled name that may be written so. -/
def ofChars (chars : List Char) : SpelledName :=
  ⟨chars.head? == some '%', String.ofList (unmark chars)⟩

theorem chars_ofChars (chars : List Char) : (ofChars chars).chars = chars := by
  unfold ofChars unmark SpelledName.chars
  split
  · simp
  · rename_i unmarked
    cases chars with
    | nil => simp
    | cons first rest =>
      have differ : first ≠ '%' := fun same => unmarked rest (same ▸ rfl)
      simp [differ]

variable {spelled : SpelledName}

/-- A mark is no part of the name, and a name is not taken for a mark. -/
theorem ofChars_chars (valid : IsName spelled.name) : ofChars spelled.chars = spelled := by
  obtain ⟨isMarked, name⟩ := spelled
  cases isMarked with
  | true => simp [ofChars, chars, unmark]
  | false =>
    have unmarked : '%' ∉ name.toList := not_mem_of_isName valid rfl
    have kept : unmark name.toList = name.toList := by
      unfold unmark
      split
      · rename_i written
        exact absurd (written ▸ List.mem_cons_self ..) unmarked
      · rfl
    have noMark : name.toList.head? ≠ some '%' := fun found => unmarked (List.mem_of_mem_head? found)
    simp [ofChars, chars, kept, noMark]

theorem unmark_chars (valid : IsName spelled.name) : String.ofList (unmark spelled.chars) = spelled.name :=
  congrArg SpelledName.name (ofChars_chars valid)

/-- A spelled name consists of letters, digits, hyphens and its mark. -/
theorem not_mem_chars (valid : IsName spelled.name) {char : Char}
    (other : Version.isIdentifierChar char = false) (unmarked : char ≠ '%') : char ∉ spelled.chars := by
  rw [chars, List.mem_append]
  rintro (isMark | inName)
  · split at isMark
    · exact unmarked (List.mem_singleton.mp isMark)
    · cases isMark
  · exact not_mem_of_isName valid other inName

end SpelledName

/-! ### Spellings -/

/-- The parts of an identifier as they are written. -/
structure Spelling where
  ns : SpelledName
  package : SpelledName
  /-- The name behind the slash. -/
  extension : Option SpelledName := none
  /-- The text behind the at sign. -/
  version : Option String := none
deriving DecidableEq, Repr

namespace Spelling

/-- The namespace and the package. -/
def qualified (spelling : Spelling) : List Char :=
  spelling.ns.chars ++ ':' :: spelling.package.chars

/-- Everything before the version. -/
def unversioned (spelling : Spelling) : List Char :=
  spelling.qualified ++ Text.marked '/' (spelling.extension.map SpelledName.chars)

/-- The text that is spelled. -/
def text (spelling : Spelling) : String :=
  String.ofList (spelling.unversioned ++ Text.marked '@' (spelling.version.map String.toList))

/-- The names are words joined by hyphens, and the version can be read. -/
structure IsValid (spelling : Spelling) : Prop where
  ns : IsKebab spelling.ns.name.toList
  package : IsKebab spelling.package.name.toList
  extension : ∀ spelled, spelling.extension = some spelled → IsKebab spelled.name.toList
  version : ∀ written, spelling.version = some written →
    ∃ version, Version.parse? written = some version

/-- The identifier without marks. -/
def ident (spelling : Spelling) : Ident where
  ns := spelling.ns.name
  package := spelling.package.name
  extension := spelling.extension.map SpelledName.name
  version := spelling.version.bind Version.parse?

variable {spelling : Spelling}

namespace IsValid

theorem isName_ns (valid : spelling.IsValid) : IsName spelling.ns.name :=
  isName_iff_isKebab.mpr valid.ns

theorem isName_package (valid : spelling.IsValid) : IsName spelling.package.name :=
  isName_iff_isKebab.mpr valid.package

theorem isName_extension (valid : spelling.IsValid) {spelled : SpelledName}
    (named : spelling.extension = some spelled) : IsName spelled.name :=
  isName_iff_isKebab.mpr (valid.extension spelled named)

theorem map_ofChars_extension (valid : spelling.IsValid) :
    (spelling.extension.map SpelledName.chars).map SpelledName.ofChars = spelling.extension := by
  rw [Option.map_map]
  cases named : spelling.extension with
  | none => rfl
  | some spelled => exact congrArg some (SpelledName.ofChars_chars (valid.isName_extension named))

/-! ### The cuts find the parts -/

/-- Namespace and package contain no separator but their colon. -/
theorem not_mem_qualified (valid : spelling.IsValid) {char : Char}
    (other : Version.isIdentifierChar char = false) (unmarked : char ≠ '%') (noColon : char ≠ ':') :
    char ∉ spelling.qualified := by
  rw [qualified, List.mem_append, List.mem_cons]
  rintro (inNs | isColon | inPackage)
  · exact SpelledName.not_mem_chars valid.isName_ns other unmarked inNs
  · exact noColon isColon
  · exact SpelledName.not_mem_chars valid.isName_package other unmarked inPackage

theorem cutFirst_qualified (valid : spelling.IsValid) :
    Text.cutFirst ':' spelling.qualified = (spelling.ns.chars, some spelling.package.chars) :=
  Text.cutFirst_append _ (SpelledName.not_mem_chars valid.isName_ns rfl (by decide))

theorem cutFirst_unversioned (valid : spelling.IsValid) :
    Text.cutFirst '/' spelling.unversioned
      = (spelling.qualified, spelling.extension.map SpelledName.chars) :=
  Text.cutFirst_marked (valid.not_mem_qualified rfl (by decide) (by decide)) _

theorem cutLast_text (valid : spelling.IsValid) :
    Text.cutLast '@' spelling.text.toList
      = (spelling.unversioned, spelling.version.map String.toList) := by
  rw [text, String.toList_ofList]
  refine Text.cutLast_marked ?_
  cases versioned : spelling.version with
  | none =>
    change '@' ∉ spelling.unversioned
    rw [unversioned, List.mem_append]
    rintro (inNames | inExtension)
    · exact valid.not_mem_qualified rfl (by decide) (by decide) inNames
    · rcases Text.mem_marked inExtension with isMark | ⟨written, named, inside⟩
      · exact absurd isMark (by decide)
      · obtain ⟨spelled, isExtension, rfl⟩ := Option.map_eq_some_iff.mp named
        exact SpelledName.not_mem_chars (valid.isName_extension isExtension) rfl (by decide) inside
  | some written =>
    -- no version is written with an at sign
    obtain ⟨version, read⟩ := valid.version written versioned
    have normal := Version.isNormal_of_parseChars? read
    rw [← Version.text_of_parse? read]
    intro inside
    rcases Version.mem_text normal inside with identifierChar | dot | plus
    · exact absurd identifierChar (by decide)
    · exact absurd dot (by decide)
    · exact absurd plus (by decide)

/-- **A text has one valid spelling at most.** -/
theorem unique (valid : spelling.IsValid) {other : Spelling} (otherValid : other.IsValid)
    (same : other.text = spelling.text) : other = spelling := by
  have cutVersion := otherValid.cutLast_text
  rw [same, valid.cutLast_text, Prod.mk.injEq] at cutVersion
  have cutExtension := otherValid.cutFirst_unversioned
  rw [← cutVersion.1, valid.cutFirst_unversioned, Prod.mk.injEq] at cutExtension
  have cutPackage := otherValid.cutFirst_qualified
  rw [← cutExtension.1, valid.cutFirst_qualified, Prod.mk.injEq, Option.some.injEq] at cutPackage
  have sameNs : other.ns = spelling.ns := by
    rw [← SpelledName.ofChars_chars otherValid.isName_ns, ← cutPackage.1,
      SpelledName.ofChars_chars valid.isName_ns]
  have samePackage : other.package = spelling.package := by
    rw [← SpelledName.ofChars_chars otherValid.isName_package, ← cutPackage.2,
      SpelledName.ofChars_chars valid.isName_package]
  have sameExtension : other.extension = spelling.extension := by
    rw [← otherValid.map_ofChars_extension, ← cutExtension.2, valid.map_ofChars_extension]
  have sameVersion : other.version = spelling.version :=
    Option.map_injective (fun _ _ => String.toList_injective) cutVersion.2.symm
  cases other
  cases spelling
  simp_all only

end IsValid

/-! ### What is read -/

/-- A version is read if there is none or if its text is the text of a version. -/
theorem parseVersion_eq_ok_iff {written : Option String} {version : Option Version} :
    parseVersion (written.map String.toList) = .ok version
      ↔ (∀ text, written = some text → ∃ found, Version.parse? text = some found)
        ∧ written.bind Version.parse? = version := by
  cases written with
  | none => simp [parseVersion, eq_comm]
  | some text =>
    have sameText : Version.parse? text = Version.parseChars? text.toList := rfl
    cases found : Version.parseChars? text.toList <;> simp [parseVersion, sameText, found]

theorem checkExtension_eq_ok_iff {extension : Option String} :
    checkExtension extension = .ok () ↔ ∀ name, extension = some name → IsName name := by
  cases extension with
  | none => simp [checkExtension]
  | some name => by_cases empty : name = "" <;> simp [checkExtension, IsName, empty]

/-- A text is read as an identifier if its parts are. -/
theorem parse_eq_ok_iff_of_cut {text : String} {ident : Ident} {named qualified ns : List Char}
    {version extension package : Option (List Char)}
    (cutVersion : Text.cutLast '@' text.toList = (named, version))
    (cutExtension : Text.cutFirst '/' named = (qualified, extension))
    (cutPackage : Text.cutFirst ':' qualified = (ns, package)) :
    parse text = .ok ident ↔
      parseVersion version = .ok ident.version
        ∧ ident.ns = String.ofList (unmark ns)
        ∧ ident.package = String.ofList ((package.map unmark).getD [])
        ∧ ident.extension = extension.map (fun name => String.ofList (unmark name))
        ∧ IsName ident.ns ∧ IsName ident.package
        ∧ ∀ name, ident.extension = some name → IsName name := by
  simp only [parse, cutVersion, cutExtension, cutPackage]
  generalize String.ofList (unmark ns) = nsName
  generalize String.ofList ((package.map unmark).getD []) = packageName
  generalize extension.map (fun name => String.ofList (unmark name)) = extensionName
  rw [Success.bind_eq_ok_iff]
  -- an empty name has a fault of its own, and on the right it is no name
  by_cases noNs : nsName = ""
  · simp only [noNs, if_true]
    constructor
    · rintro ⟨_, -, ⟨⟩⟩
    · rintro ⟨-, isEmpty, -, -, ⟨nonempty, -⟩, -⟩
      exact absurd isEmpty nonempty
  by_cases noPackage : packageName = ""
  · simp only [noNs, noPackage, if_true, if_false]
    constructor
    · rintro ⟨_, -, ⟨⟩⟩
    · rintro ⟨-, -, isEmpty, -, -, ⟨nonempty, -⟩, -⟩
      exact absurd isEmpty nonempty
  simp only [noNs, noPackage, if_false, Success.bind_eq_ok_iff, Success.pure_eq_ok_iff,
    ← checkExtension_eq_ok_iff]
  constructor
  · rintro ⟨_, readVersion, ⟨⟩, checkedNs, ⟨⟩, checkedPackage, ⟨⟩, checkedExtension, rfl⟩
    exact ⟨readVersion, rfl, rfl, rfl, ⟨noNs, checkedNs⟩, ⟨noPackage, checkedPackage⟩,
      checkedExtension⟩
  · rintro ⟨readVersion, rfl, rfl, rfl, ⟨-, checkedNs⟩, ⟨-, checkedPackage⟩, checkedExtension⟩
    exact ⟨_, readVersion, ⟨⟩, checkedNs, ⟨⟩, checkedPackage, ⟨⟩, checkedExtension, rfl⟩

/-- The parts of a valid spelling are read. -/
theorem IsValid.parse_text (valid : spelling.IsValid) : parse spelling.text = .ok spelling.ident := by
  rw [parse_eq_ok_iff_of_cut valid.cutLast_text valid.cutFirst_unversioned valid.cutFirst_qualified]
  refine ⟨parseVersion_eq_ok_iff.mpr ⟨valid.version, rfl⟩, (SpelledName.unmark_chars valid.isName_ns).symm,
    (SpelledName.unmark_chars valid.isName_package).symm, ?_, valid.isName_ns, valid.isName_package, ?_⟩
  · rw [Option.map_map]
    exact Option.map_congr fun spelled named => (SpelledName.unmark_chars (valid.isName_extension named)).symm
  · intro name named
    obtain ⟨spelled, isExtension, rfl⟩ := Option.map_eq_some_iff.mp named
    exact valid.isName_extension isExtension

/-- A text that is read has a valid spelling. -/
theorem exists_of_parse {text : String} {ident : Ident} (read : parse text = .ok ident) :
    ∃ spelling : Spelling, spelling.IsValid ∧ spelling.text = text ∧ spelling.ident = ident := by
  obtain ⟨⟨named, version⟩, cutVersion⟩ : ∃ cut, Text.cutLast '@' text.toList = cut := ⟨_, rfl⟩
  obtain ⟨⟨qualified, extension⟩, cutExtension⟩ : ∃ cut, Text.cutFirst '/' named = cut := ⟨_, rfl⟩
  obtain ⟨⟨ns, package⟩, cutPackage⟩ : ∃ cut, Text.cutFirst ':' qualified = cut := ⟨_, rfl⟩
  obtain ⟨readVersion, isNs, isPackage, isExtension, validNs, validPackage, validExtension⟩ :=
    (parse_eq_ok_iff_of_cut cutVersion cutExtension cutPackage).mp read
  -- without a colon the name of the package would be empty
  obtain ⟨packageName, rfl⟩ : ∃ packageName, package = some packageName := by
    cases package with
    | none => exact absurd isPackage validPackage.1
    | some packageName => exact ⟨packageName, rfl⟩
  have written : (version.map String.ofList).map String.toList = version := by
    simp [Function.comp_def]
  have spelled : (extension.map SpelledName.ofChars).map SpelledName.chars = extension := by
    simp [Function.comp_def, SpelledName.chars_ofChars]
  rw [← written, parseVersion_eq_ok_iff] at readVersion
  have isQualified : qualified = ns ++ ':' :: packageName := (Text.cutFirst_eq_iff.mp cutPackage).1
  refine ⟨⟨.ofChars ns, .ofChars packageName, extension.map .ofChars, version.map String.ofList⟩,
    ⟨?_, ?_, ?_, readVersion.1⟩, ?_, ?_⟩
  · rw [isNs] at validNs
    exact isName_iff_isKebab.mp validNs
  · rw [isPackage] at validPackage
    exact isName_iff_isKebab.mp validPackage
  · intro name named
    obtain ⟨chars, isChars, rfl⟩ := Option.map_eq_some_iff.mp named
    refine isName_iff_isKebab.mp (validExtension _ ?_)
    rw [isExtension, isChars]
    rfl
  · rw [← String.toList_inj, (Text.cutLast_eq_iff.mp cutVersion).1, (Text.cutFirst_eq_iff.mp cutExtension).1,
      isQualified]
    simp only [Spelling.text, unversioned, Spelling.qualified, String.toList_ofList, written, spelled,
      SpelledName.chars_ofChars]
  · obtain ⟨_, _, _, _⟩ := ident
    rw [Ident.mk.injEq]
    exact ⟨isNs.symm, isPackage.symm, (Option.map_map ..).trans isExtension.symm, readVersion.2⟩

end Spelling

/-- **What is read as an identifier**: exactly the texts that have a valid spelling are read, the
spelling of a text is unique, and its names and its version are those of the identifier. -/
theorem parse_iff_spelling (text : String) :
    ((∃ ident, parse text = .ok ident)
        ↔ ∃ spelling : Spelling, spelling.IsValid ∧ spelling.text = text)
      ∧ ∀ spelling : Spelling, spelling.IsValid → spelling.text = text →
        parse text = .ok spelling.ident
          ∧ ∀ other : Spelling, other.IsValid → other.text = text → other = spelling := by
  refine ⟨⟨?_, ?_⟩, ?_⟩
  · rintro ⟨ident, read⟩
    obtain ⟨spelling, valid, spelled, -⟩ := Spelling.exists_of_parse read
    exact ⟨spelling, valid, spelled⟩
  · rintro ⟨spelling, valid, rfl⟩
    exact ⟨spelling.ident, valid.parse_text⟩
  · rintro spelling valid rfl
    exact ⟨valid.parse_text, fun other => valid.unique⟩

/-- A marked name, an upper-case word behind a hyphen and a pre-release version. -/
theorem parse_iff_spelling_marked :
    parse "wasi:%use/x1-TCP@1.0.0-rc.2"
        = .ok ⟨"wasi", "use", some "x1-TCP", some ⟨1, 0, 0, ["rc", "2"], []⟩⟩
      ∧ ∀ other : Spelling, other.IsValid → other.text = "wasi:%use/x1-TCP@1.0.0-rc.2" →
        other = ⟨⟨false, "wasi"⟩, ⟨true, "use"⟩, some ⟨false, "x1-TCP"⟩, some "1.0.0-rc.2"⟩ := by
  refine (parse_iff_spelling _).2
    ⟨⟨false, "wasi"⟩, ⟨true, "use"⟩, some ⟨false, "x1-TCP"⟩, some "1.0.0-rc.2"⟩ ?_ rfl
  refine ⟨isName_iff_isKebab.mp ⟨by decide, rfl⟩, isName_iff_isKebab.mp ⟨by decide, rfl⟩, ?_, ?_⟩
  · rintro spelled ⟨rfl⟩
    exact isName_iff_isKebab.mp ⟨by decide, rfl⟩
  · rintro written ⟨rfl⟩
    exact ⟨_, rfl⟩

end WitGraph.Ident
