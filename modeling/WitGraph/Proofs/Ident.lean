/-
**The text of an identifier.**

What `Ident.parse` reads is normal (`IsNormal`): its names are names and its version is normal. A
normal identifier is written as a spelling that marks the reserved words and no other name
(`spelling`), which is valid. So it is read back from its text: `parse_text`.
-/

import WitGraph.Proofs.Ident.Spelling

namespace WitGraph.Ident

/-- The identifier is one that can be read. -/
structure IsNormal (ident : Ident) : Prop where
  ns : IsName ident.ns
  package : IsName ident.package
  extension : ∀ name, ident.extension = some name → IsName name
  version : ∀ version, ident.version = some version → version.IsNormal

/-! ### What is read is normal -/

theorem Spelling.IsValid.isNormal {spelling : Spelling} (valid : spelling.IsValid) :
    spelling.ident.IsNormal := by
  refine ⟨valid.isName_ns, valid.isName_package, ?_, ?_⟩
  · intro name named
    obtain ⟨spelled, isExtension, rfl⟩ := Option.map_eq_some_iff.mp named
    exact valid.isName_extension isExtension
  · intro version versioned
    obtain ⟨written, -, read⟩ := Option.bind_eq_some_iff.mp versioned
    exact Version.isNormal_of_parseChars? read

theorem isNormal_of_parse {text : String} {ident : Ident} (read : parse text = .ok ident) :
    ident.IsNormal := by
  obtain ⟨spelling, valid, -, rfl⟩ := Spelling.exists_of_parse read
  exact valid.isNormal

/-! ### Related identifiers -/

theorem IsNormal.withExtension {ident : Ident} (normal : ident.IsNormal) {name : String}
    (valid : IsName name) : (ident.withExtension name).IsNormal := by
  refine ⟨normal.ns, normal.package, ?_, normal.version⟩
  rintro name ⟨rfl⟩
  exact valid

theorem IsNormal.unversioned {ident : Ident} (normal : ident.IsNormal) : ident.unversioned.IsNormal :=
  ⟨normal.ns, normal.package, normal.extension, by rintro version ⟨⟩⟩

/-! ### What is normal is read back -/

/-- A name as it is written: a reserved word is marked. -/
def spelledName (name : String) : SpelledName :=
  ⟨decide (name ∈ reservedWords), name⟩

theorem chars_spelledName (name : String) : (spelledName name).chars = (nameText name).toList := by
  unfold spelledName nameText SpelledName.chars
  by_cases reserved : name ∈ reservedWords <;> simp [reserved]

/-- The spelling in which an identifier is written. -/
def spelling (ident : Ident) : Spelling where
  ns := spelledName ident.ns
  package := spelledName ident.package
  extension := ident.extension.map spelledName
  version := ident.version.map Version.text

theorem text_spelling (ident : Ident) : ident.spelling.text = ident.text := by
  obtain ⟨ns, package, extension, version⟩ := ident
  rw [← String.toList_inj]
  cases extension <;> cases version <;>
    simp [spelling, Spelling.text, Spelling.unversioned, Spelling.qualified, chars_spelledName, text,
      extensionText, versionText, Text.marked]

variable {ident : Ident}

theorem IsNormal.isValid_spelling (normal : ident.IsNormal) : ident.spelling.IsValid := by
  refine ⟨isName_iff_isKebab.mp normal.ns, isName_iff_isKebab.mp normal.package, ?_, ?_⟩
  · intro spelled named
    obtain ⟨name, isExtension, rfl⟩ := Option.map_eq_some_iff.mp named
    exact isName_iff_isKebab.mp (normal.extension name isExtension)
  · intro written versioned
    obtain ⟨version, isVersion, rfl⟩ := Option.map_eq_some_iff.mp versioned
    exact ⟨version, Version.parse?_text (normal.version version isVersion)⟩

theorem IsNormal.ident_spelling (normal : ident.IsNormal) : ident.spelling.ident = ident := by
  obtain ⟨ns, package, extension, version⟩ := ident
  have sameExtension : (extension.map spelledName).map SpelledName.name = extension := by
    simp [Function.comp_def, spelledName]
  have sameVersion : (version.map Version.text).bind Version.parse? = version := by
    cases version with
    | none => rfl
    | some version => rw [Option.map_some, Option.bind_some, Version.parse?_text (normal.version version rfl)]
  rw [Ident.mk.injEq]
  exact ⟨rfl, rfl, sameExtension, sameVersion⟩

/-- **A normal identifier is read back from its text.** -/
theorem parse_text (normal : ident.IsNormal) : parse ident.text = .ok ident := by
  rw [← text_spelling, normal.isValid_spelling.parse_text, normal.ident_spelling]

/-- The text of an identifier is no bare name. -/
theorem colon_mem_text (ident : Ident) : ':' ∈ ident.text.toList := by
  simp [text]

/-- Normal identifiers are told apart by their texts. -/
theorem IsNormal.text_inj (normal : ident.IsNormal) {other : Ident} (otherNormal : other.IsNormal) :
    ident.text = other.text ↔ ident = other := by
  refine ⟨fun same => ?_, congrArg text⟩
  have read := parse_text normal
  rw [same, parse_text otherNormal] at read
  exact (Except.ok.inj read).symm

end WitGraph.Ident
