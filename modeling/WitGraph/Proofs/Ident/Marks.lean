/-
**Identifiers are texts up to marks.**

A name may be marked or not without changing the identifier, and nothing else in a text may change: two
texts that are read denote one identifier exactly if they agree up to marks (`eq_iff_agreeUpToMarks`).
Of these texts the identifier is written as the one that marks the reserved words and no other name.

An identifier need not have been read itself for this, but may be made of one that has been read
(`IsObtained`), for it is normal all the same: `text_roundTrips`.
-/

import WitGraph.Proofs.Ident

namespace WitGraph.Ident

/-! ### Spellings without their marks -/

/-- The name without a mark. -/
def SpelledName.unmarked (spelled : SpelledName) : SpelledName :=
  { spelled with isMarked := false }

namespace Spelling

/-- The spelling without marks. -/
def unmarked (spelling : Spelling) : Spelling where
  ns := spelling.ns.unmarked
  package := spelling.package.unmarked
  extension := spelling.extension.map SpelledName.unmarked
  version := spelling.version

/-- Exactly the reserved words are marked. -/
structure MarksReserved (spelling : Spelling) : Prop where
  ns : spelling.ns.isMarked = true ↔ spelling.ns.name ∈ reservedWords
  package : spelling.package.isMarked = true ↔ spelling.package.name ∈ reservedWords
  extension : ∀ spelled, spelling.extension = some spelled →
    (spelled.isMarked = true ↔ spelled.name ∈ reservedWords)

theorem ident_unmarked (spelling : Spelling) : spelling.unmarked.ident = spelling.ident := by
  simp [ident, unmarked, SpelledName.unmarked, Function.comp_def]

variable {spelling : Spelling}

/-- Without its marks a spelling can be recovered from the identifier. -/
theorem IsValid.unmarked_eq (valid : spelling.IsValid) :
    spelling.unmarked = {
      ns := ⟨false, spelling.ident.ns⟩
      package := ⟨false, spelling.ident.package⟩
      extension := spelling.ident.extension.map fun name => ⟨false, name⟩
      version := spelling.ident.version.map Version.text } := by
  have sameVersion : (spelling.version.bind Version.parse?).map Version.text = spelling.version := by
    cases versioned : spelling.version with
    | none => rfl
    | some written =>
      obtain ⟨version, read⟩ := valid.version written versioned
      rw [Option.bind_some, read, Option.map_some, Version.text_of_parse? read]
  rw [unmarked, Spelling.mk.injEq]
  exact ⟨rfl, rfl, (Option.map_map ..).symm, sameVersion.symm⟩

/-- **Valid spellings of one identifier differ in their marks only.** -/
theorem IsValid.ident_eq_iff (valid : spelling.IsValid) {other : Spelling} (otherValid : other.IsValid) :
    other.ident = spelling.ident ↔ other.unmarked = spelling.unmarked := by
  constructor
  · intro same
    rw [otherValid.unmarked_eq, valid.unmarked_eq, same]
  · intro same
    rw [← ident_unmarked, same, ident_unmarked]

end Spelling

theorem marksReserved_spelling (ident : Ident) : ident.spelling.MarksReserved := by
  refine ⟨decide_eq_true_iff, decide_eq_true_iff, ?_⟩
  intro spelled named
  obtain ⟨name, -, rfl⟩ := Option.map_eq_some_iff.mp named
  exact decide_eq_true_iff

/-! ### Texts that agree up to marks -/

/-- The texts have valid spellings that differ in their marks only. -/
def AgreeUpToMarks (first second : String) : Prop :=
  ∃ spelling other : Spelling, spelling.IsValid ∧ spelling.text = first
    ∧ other.IsValid ∧ other.text = second ∧ spelling.unmarked = other.unmarked

/-- **Texts denote one identifier exactly if they agree up to marks.** -/
theorem eq_iff_agreeUpToMarks {first second : String} {ident other : Ident}
    (read : parse first = .ok ident) (readOther : parse second = .ok other) :
    ident = other ↔ AgreeUpToMarks first second := by
  constructor
  · rintro rfl
    obtain ⟨spelling, valid, spelled, denoted⟩ := Spelling.exists_of_parse read
    obtain ⟨other, otherValid, otherSpelled, same⟩ := Spelling.exists_of_parse readOther
    exact ⟨spelling, other, valid, spelled, otherValid, otherSpelled,
      (otherValid.ident_eq_iff valid).mp (denoted.trans same.symm)⟩
  · rintro ⟨spelling, otherSpelling, valid, rfl, otherValid, rfl, same⟩
    cases valid.parse_text.symm.trans read
    cases otherValid.parse_text.symm.trans readOther
    exact (otherValid.ident_eq_iff valid).mpr same

/-! ### Identifiers that are obtained from texts -/

/-- The identifier has been read, or has been made of such an identifier. -/
inductive IsObtained : Ident → Prop where
  | parsed {text : String} {ident : Ident} (read : parse text = .ok ident) : IsObtained ident
  | packageName {ident : Ident} (obtained : IsObtained ident) : IsObtained ident.packageName
  | unversioned {ident : Ident} (obtained : IsObtained ident) : IsObtained ident.unversioned
  | withExtension {ident : Ident} {name : String} (obtained : IsObtained ident) (valid : IsName name) :
    IsObtained (ident.withExtension name)

theorem IsObtained.isNormal {ident : Ident} (obtained : ident.IsObtained) : ident.IsNormal := by
  induction obtained with
  | parsed read => exact isNormal_of_parse read
  | packageName _ ih => exact ⟨ih.ns, ih.package, by rintro name ⟨⟩, ih.version⟩
  | unversioned _ ih => exact ih.unversioned
  | withExtension _ valid ih => exact ih.withExtension valid

/-- The text of an identifier stands for it among all texts. -/
structure RoundTrips (ident : Ident) : Prop where
  /-- The text is read as the identifier. -/
  readBack : parse ident.text = .ok ident
  /-- Each name of the text is marked if and only if it is a reserved word. -/
  marks : ∃ spelling : Spelling, spelling.IsValid ∧ spelling.text = ident.text ∧ spelling.MarksReserved
  /-- Any other text that is read as the identifier has other marks and is the same otherwise. -/
  onlyMarks : ∀ text, parse text = .ok ident → AgreeUpToMarks text ident.text
  /-- A text is read as the same identifier as another one exactly if they agree up to marks. -/
  same_iff : ∀ first, parse first = .ok ident → ∀ second other, parse second = .ok other →
    (ident = other ↔ AgreeUpToMarks first second)
  /-- No other identifier has the text. -/
  injective : ∀ other : Ident, other.IsObtained → other.text = ident.text → other = ident

/-- **The text of an identifier round-trips** if the identifier is read or made of one that is read. -/
theorem text_roundTrips {ident : Ident} (obtained : ident.IsObtained) : ident.RoundTrips := by
  have normal := obtained.isNormal
  have readBack := parse_text normal
  refine ⟨readBack, ⟨ident.spelling, normal.isValid_spelling, text_spelling ident,
    marksReserved_spelling ident⟩, ?_, ?_, ?_⟩
  · intro text read
    exact (eq_iff_agreeUpToMarks read readBack).mp rfl
  · intro first read second other readOther
    exact eq_iff_agreeUpToMarks read readOther
  · intro other otherObtained same
    have readOther := parse_text otherObtained.isNormal
    rw [same, readBack] at readOther
    cases readOther
    rfl

/-- The marks of a text are not those of its identifier, and the extension is a reserved word. -/
theorem text_roundTrips_withExtension :
    ∃ ident, parse "%wasi:use@1.0.0-rc.2" = .ok ident
      ∧ ((ident.unversioned).withExtension "list").RoundTrips
      ∧ ((ident.unversioned).withExtension "list").text = "wasi:%use/%list" :=
  ⟨⟨"wasi", "use", none, some ⟨1, 0, 0, ["rc", "2"], []⟩⟩, rfl,
    text_roundTrips (.withExtension (.unversioned (@IsObtained.parsed "%wasi:use@1.0.0-rc.2" _ rfl))
      ⟨by decide, rfl⟩), rfl⟩

end WitGraph.Ident
