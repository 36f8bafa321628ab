/-
**The text of a version.**

What `Version.parse?` reads is normal (`IsNormal`): its numbers fit a word and its identifiers are
well-formed. A normal version is read back from its text (`parse?_text`), and no other text is read as
it: a text that is read is the text of its version (`text_of_parse?`).
-/

import WitGraph.Proofs.Numeral
import WitGraph.Proofs.Segments
import WitGraph.Version

namespace WitGraph.Version

/-- The version is one that can be read. -/
structure IsNormal (version : Version) : Prop where
  major : version.major < numberLimit
  minor : version.minor < numberLimit
  patch : version.patch < numberLimit
  pre : ∀ identifier ∈ version.pre, isPreIdentifier identifier.toList = true
  build : ∀ identifier ∈ version.build, isBuildIdentifier identifier.toList = true

/-! ### What is read is normal -/

theorem lt_of_parseNumber? {digits : List Char} {number : Nat}
    (read : parseNumber? digits = some number) : number < numberLimit := by
  unfold parseNumber? at read
  split at read
  · cases read
  · dsimp only at read
    split at read
    · cases read
      assumption
    · cases read

theorem valid_of_parseOptional? {valid : List Char → Bool} {text : Option (List Char)}
    {identifiers : List String} (read : parseOptional? valid text = some identifiers) :
    ∀ identifier ∈ identifiers, valid identifier.toList = true := by
  intro identifier member
  cases text with
  | none =>
    cases read
    cases member
  | some text =>
    simp only [parseOptional?, parseIdentifiers?, Option.ite_none_right_eq_some,
      Option.some.injEq] at read
    obtain ⟨allValid, rfl⟩ := read
    obtain ⟨segment, isSegment, rfl⟩ := List.mem_map.mp member
    rw [String.toList_ofList]
    exact List.all_eq_true.mp allValid segment isSegment

theorem isNormal_of_parseChars? {chars : List Char} {version : Version}
    (read : parseChars? chars = some version) : version.IsNormal := by
  simp only [parseChars?] at read
  split at read
  · simp only [Option.bind_eq_bind, Option.bind_eq_some_iff, Option.pure_def,
      Option.some.injEq] at read
    obtain ⟨major, isMajor, minor, isMinor, patch, isPatch, pre, isPre, build, isBuild, rfl⟩ := read
    exact ⟨lt_of_parseNumber? isMajor, lt_of_parseNumber? isMinor, lt_of_parseNumber? isPatch,
      valid_of_parseOptional? isPre, valid_of_parseOptional? isBuild⟩
  · cases read

/-! ### What is normal is read back -/

theorem parseNumber?_toDigits {number : Nat} (fits : number < numberLimit) :
    parseNumber? (Nat.toDigits 10 number) = some number := by
  have numeric : isNumeric (Nat.toDigits 10 number) = true :=
    List.all_eq_true.mpr fun _ => isDigit_of_mem_toDigits
  have noLeadingZero : hasLeadingZero (Nat.toDigits 10 number) = false := by
    rcases Nat.eq_zero_or_pos number with rfl | positive
    · rfl
    · obtain ⟨first, rest, written, nonzero⟩ := toDigits_eq_cons positive
      simp [hasLeadingZero, written, nonzero]
  simp [parseNumber?, numeric, noLeadingZero, Nat.ofDigitChars_ten_toDigits, fits]

/-- Identifiers as they stand behind their mark; nothing if there are none. -/
def joined (identifiers : List String) : Option (List Char) :=
  if identifiers.isEmpty then none else some (['.'].intercalate (identifiers.map String.toList))

theorem toList_identifiersText (mark : Char) (identifiers : List String) :
    (identifiersText (String.singleton mark) identifiers).toList
      = Text.marked mark (joined identifiers) := by
  unfold identifiersText joined
  split
  · rfl
  · rw [String.toList_append, String.toList_intercalate, String.toList_singleton]
    rfl

theorem parseOptional?_joined {valid : List Char → Bool} {identifiers : List String}
    (undotted : ∀ identifier, valid identifier = true → '.' ∉ identifier)
    (areValid : ∀ identifier ∈ identifiers, valid identifier.toList = true) :
    parseOptional? valid (joined identifiers) = some identifiers := by
  unfold joined
  split
  · rename_i empty
    rw [List.isEmpty_iff.mp empty]
    rfl
  · rename_i nonempty
    have pieces : Text.segments '.' (['.'].intercalate (identifiers.map String.toList))
        = identifiers.map String.toList := by
      refine Text.segments_intercalate (by simpa using nonempty) fun piece member => ?_
      obtain ⟨identifier, inside, rfl⟩ := List.mem_map.mp member
      exact undotted _ (areValid identifier inside)
    have allValid : (identifiers.map String.toList).all valid = true := by
      simpa using areValid
    simp [parseOptional?, parseIdentifiers?, pieces, allValid, Function.comp_def]

theorem isIdentifierChar_of_mem {identifier : List Char} (valid : isBuildIdentifier identifier = true)
    {char : Char} (member : char ∈ identifier) : isIdentifierChar char = true := by
  simp only [isBuildIdentifier, Bool.and_eq_true, List.all_eq_true] at valid
  exact valid.2 char member

theorem isBuildIdentifier_of_isPreIdentifier {identifier : List Char}
    (valid : isPreIdentifier identifier = true) : isBuildIdentifier identifier = true := by
  simp only [isPreIdentifier, Bool.and_eq_true] at valid
  exact valid.1

theorem mem_joined {identifiers : List String}
    (areValid : ∀ identifier ∈ identifiers, isBuildIdentifier identifier.toList = true)
    {text : List Char} (written : joined identifiers = some text) {char : Char}
    (member : char ∈ text) : isIdentifierChar char = true ∨ char = '.' := by
  unfold joined at written
  split at written
  · cases written
  · cases written
    rcases Text.mem_intercalate member with dot | ⟨piece, isPiece, member⟩
    · exact Or.inr dot
    · obtain ⟨identifier, isIdentifier, rfl⟩ := List.mem_map.mp isPiece
      exact Or.inl (isIdentifierChar_of_mem (areValid identifier isIdentifier) member)

/-- The numerals of the three numbers. -/
def numerals (version : Version) : List (List Char) :=
  [Nat.toDigits 10 version.major, Nat.toDigits 10 version.minor, Nat.toDigits 10 version.patch]

/-- The three numbers as they are written. -/
def numbersText (version : Version) : List Char :=
  ['.'].intercalate version.numerals

theorem toList_text (version : Version) :
    version.text.toList = (version.numbersText ++ Text.marked '-' (joined version.pre))
      ++ Text.marked '+' (joined version.build) := by
  have pre := toList_identifiersText '-' version.pre
  have build := toList_identifiersText '+' version.build
  have hyphen : String.singleton '-' = "-" := rfl
  have plus : String.singleton '+' = "+" := rfl
  rw [hyphen] at pre
  rw [plus] at build
  have dot : (toString ".").toList = ['.'] := rfl
  simp [text, numbersText, numerals, pre, build, dot, List.intercalate_cons_cons,
    List.intercalate_singleton]

theorem mem_numbersText {version : Version} {char : Char} (member : char ∈ version.numbersText) :
    char.isDigit = true ∨ char = '.' := by
  rcases Text.mem_intercalate member with dot | ⟨numeral, isNumeral, member⟩
  · exact Or.inr dot
  · simp only [numerals, List.mem_cons, List.not_mem_nil, or_false] at isNumeral
    rcases isNumeral with rfl | rfl | rfl <;> exact Or.inl (isDigit_of_mem_toDigits member)

variable {version : Version}

/-- The text of a version consists of letters, digits, hyphens, dots and plus signs. -/
theorem mem_text (normal : version.IsNormal) {char : Char} (member : char ∈ version.text.toList) :
    isIdentifierChar char = true ∨ char = '.' ∨ char = '+' := by
  have pre : ∀ identifier ∈ version.pre, isBuildIdentifier identifier.toList = true :=
    fun identifier inside => isBuildIdentifier_of_isPreIdentifier (normal.pre identifier inside)
  rw [toList_text, List.mem_append, List.mem_append] at member
  rcases member with (inNumbers | inPre) | inBuild
  · rcases mem_numbersText inNumbers with digit | dot
    · exact Or.inl (by simp [isIdentifierChar, Char.isAlphanum, digit])
    · exact Or.inr (Or.inl dot)
  · rcases Text.mem_marked inPre with rfl | ⟨text, written, inside⟩
    · exact Or.inl rfl
    · exact (mem_joined pre written inside).imp_right Or.inl
  · rcases Text.mem_marked inBuild with rfl | ⟨text, written, inside⟩
    · exact Or.inr (Or.inr rfl)
    · exact (mem_joined normal.build written inside).imp_right Or.inl

/-- **A normal version is read back from its text.** -/
theorem parse?_text (normal : version.IsNormal) : parse? version.text = some version := by
  have pre : ∀ identifier ∈ version.pre, isBuildIdentifier identifier.toList = true :=
    fun identifier inside => isBuildIdentifier_of_isPreIdentifier (normal.pre identifier inside)
  have noPlus : '+' ∉ version.numbersText ++ Text.marked '-' (joined version.pre) := by
    rw [List.mem_append]
    rintro (inNumbers | inPre)
    · rcases mem_numbersText inNumbers with digit | dot
      · exact absurd digit (by decide)
      · exact absurd dot (by decide)
    · rcases Text.mem_marked inPre with mark | ⟨text, written, inside⟩
      · exact absurd mark (by decide)
      · rcases mem_joined pre written inside with valid | dot
        · exact absurd valid (by decide)
        · exact absurd dot (by decide)
  have noHyphen : '-' ∉ version.numbersText := by
    intro inside
    rcases mem_numbersText inside with digit | dot
    · exact absurd digit (by decide)
    · exact absurd dot (by decide)
  have numbers : Text.segments '.' version.numbersText = version.numerals := by
    refine Text.segments_intercalate (by simp [numerals]) fun numeral isNumeral inside => ?_
    simp only [numerals, List.mem_cons, List.not_mem_nil, or_false] at isNumeral
    rcases isNumeral with rfl | rfl | rfl <;>
      exact absurd (isDigit_of_mem_toDigits inside) (by decide)
  have undotted : ∀ identifier, isBuildIdentifier identifier = true → '.' ∉ identifier :=
    fun identifier valid inside => absurd (isIdentifierChar_of_mem valid inside) (by decide)
  have readPre := parseOptional?_joined
    (fun identifier valid => undotted identifier (isBuildIdentifier_of_isPreIdentifier valid))
    normal.pre
  have readBuild := parseOptional?_joined undotted normal.build
  rw [parse?, toList_text, parseChars?, Text.cutFirst_marked noPlus]
  simp only [Text.cutFirst_marked noHyphen, numbers, numerals, parseNumber?_toDigits normal.major,
    parseNumber?_toDigits normal.minor, parseNumber?_toDigits normal.patch, readPre, readBuild]
  rfl

/-! ### What is read is written again -/

theorem toDigits_of_parseNumber? {digits : List Char} {number : Nat}
    (read : parseNumber? digits = some number) : Nat.toDigits 10 number = digits := by
  simp only [parseNumber?, Option.ite_none_left_eq_some, Option.ite_none_right_eq_some, Bool.or_eq_true,
    not_or, List.isEmpty_iff, Bool.not_eq_true', Bool.not_eq_true, Bool.not_eq_false,
    Option.some.injEq] at read
  obtain ⟨⟨⟨nonempty, numeric⟩, unpadded⟩, -, rfl⟩ := read
  refine toDigits_ofDigitChars nonempty (List.all_eq_true.mp numeric) fun zero => ?_
  obtain ⟨first, rest, rfl⟩ := List.exists_cons_of_ne_nil nonempty
  cases zero
  simpa [hasLeadingZero] using unpadded

theorem joined_of_parseOptional? {valid : List Char → Bool} {text : Option (List Char)}
    {identifiers : List String} (read : parseOptional? valid text = some identifiers) :
    joined identifiers = text := by
  cases text with
  | none =>
    cases read
    rfl
  | some text =>
    simp only [parseOptional?, parseIdentifiers?, Option.ite_none_right_eq_some,
      Option.some.injEq] at read
    obtain ⟨-, rfl⟩ := read
    have nonempty : ((Text.segments '.' text).map String.ofList).isEmpty = false := by
      simpa using Text.segments_ne_nil '.' text
    simp [joined, nonempty, Function.comp_def, Text.intercalate_segments]

/-- **A version is only read from its own text.** -/
theorem text_of_parse? {text : String} (read : parse? text = some version) : version.text = text := by
  obtain ⟨⟨unbuilt, build⟩, cutBuild⟩ : ∃ cut, Text.cutFirst '+' text.toList = cut := ⟨_, rfl⟩
  obtain ⟨⟨numbers, pre⟩, cutPre⟩ : ∃ cut, Text.cutFirst '-' unbuilt = cut := ⟨_, rfl⟩
  simp only [parse?, parseChars?, cutBuild, cutPre] at read
  split at read
  · rename_i major minor patch pieces
    simp only [Option.bind_eq_bind, Option.bind_eq_some_iff, Option.pure_def,
      Option.some.injEq] at read
    obtain ⟨_, isMajor, _, isMinor, _, isPatch, _, isPre, _, isBuild, rfl⟩ := read
    have glued : ['.'].intercalate [major, minor, patch] = numbers := by
      rw [← pieces, Text.intercalate_segments]
    rw [← String.toList_inj, toList_text, (Text.cutFirst_eq_iff.mp cutBuild).1,
      (Text.cutFirst_eq_iff.mp cutPre).1, joined_of_parseOptional? isPre,
      joined_of_parseOptional? isBuild, numbersText, numerals, toDigits_of_parseNumber? isMajor,
      toDigits_of_parseNumber? isMinor, toDigits_of_parseNumber? isPatch, glued]
  · cases read

end WitGraph.Version
