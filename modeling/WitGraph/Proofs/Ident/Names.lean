/-
**Names in identifiers.**

A name is one or more words joined by single hyphens (`IsKebab`). A word begins with an ASCII letter and
goes on with letters and digits, and no upper-case and lower-case letter stand side by side in it
(`IsWord`).

The check of a name goes from character to character and remembers only the last one. At every character
this is enough to tell what may follow (`checkNameFrom_eq_ok_iff`): the rest of the word that has begun,
or a word if a hyphen stands there, and then other words. So the check accepts exactly the nonempty texts
that are names (`isName_iff_isKebab`).
-/

import Mathlib.Data.List.Chain
import WitGraph.Ident
import WitGraph.Proofs.Segments

namespace WitGraph.Ident

/-! ### Names and words -/

/-- A nonempty text without faults. -/
def IsName (name : String) : Prop := name ≠ "" ∧ checkName name = .ok ()

/-- One of the letters is upper-case and the other one is lower-case. -/
def MixesCase (first second : Char) : Prop :=
  (first.isUpper = true ∧ second.isLower = true) ∨ (first.isLower = true ∧ second.isUpper = true)

/-- A letter followed by letters and digits, upper-case and lower-case letters being apart. -/
structure IsWord (word : List Char) : Prop where
  begins : ∃ first rest, word = first :: rest ∧ first.isAlpha = true
  goesOn : ∀ char ∈ word, char.isAlphanum = true
  unmixed : word.IsChain fun first second => ¬ MixesCase first second

/-- One or more words joined by single hyphens. -/
def IsKebab (name : List Char) : Prop :=
  ∃ words, words ≠ [] ∧ (∀ word ∈ words, IsWord word) ∧ name = ['-'].intercalate words

/-! ### Single characters -/

theorem isAlpha_eq (char : Char) : char.isAlpha = (char.isUpper || char.isLower) := rfl

/-- A character is of one class at most. -/
theorem classes_apart (char : Char) :
    (char.isUpper = true → char.isLower = false)
      ∧ (char.isDigit = true → char.isUpper = false ∧ char.isLower = false) := by
  have upper : char.isUpper = decide (char.val ≥ 65 ∧ char.val ≤ 90) := rfl
  have lower : char.isLower = (decide (char.val ≥ 97) && decide (char.val ≤ 122)) := rfl
  have digit : char.isDigit = (decide (char.val ≥ 48) && decide (char.val ≤ 57)) := rfl
  rw [upper, lower, digit]
  exact ⟨by grind, by grind⟩

/-- Only a letter may begin a word. -/
theorem charFault?_eq_none_iff_of_start {name : String} {previous : Option Char} {char : Char}
    (start : previous = none ∨ previous = some '-') :
    charFault? name previous char = none ↔ char.isAlpha = true := by
  have upper : '-'.isUpper = false := rfl
  have lower : '-'.isLower = false := rfl
  have other : '-'.isAlphanum = false := rfl
  rcases start with rfl | rfl <;> simp [charFault?, isAlpha_eq, upper, lower, other] <;> grind

/-- Within a word there may be one more character of the word, or a hyphen that ends it. -/
theorem charFault?_eq_none_iff_of_isAlphanum {name : String} {previous char : Char}
    (within : previous.isAlphanum = true) :
    charFault? name (some previous) char = none
      ↔ (char.isAlphanum = true ∧ ¬ MixesCase previous char) ∨ char = '-' := by
  by_cases hyphen : char = '-'
  · subst hyphen
    refine iff_of_true ?_ (Or.inr rfl)
    have noHyphen : previous ≠ '-' := by
      rintro rfl
      cases within
    rw [charFault?, if_neg (by decide), if_neg (by decide), if_neg (by decide), if_pos rfl]
    exact noHyphen
  obtain ⟨upperOnly, digitOnly⟩ := classes_apart char
  simp only [charFault?, MixesCase, Option.any_some, within, hyphen, or_false]
  by_cases lower : char.isLower = true
  · have notUpper : char.isUpper = false := by simpa [lower] using upperOnly
    simp [lower, notUpper, Char.isAlphanum, isAlpha_eq]
  by_cases upper : char.isUpper = true
  · simp [lower, upper, Char.isAlphanum, isAlpha_eq]
  by_cases digit : char.isDigit = true
  · simp [lower, upper, digit, Char.isAlphanum]
  · simp [lower, upper, digit, Char.isAlphanum, isAlpha_eq]

/-! ### The rest of a name -/

/-- The first piece goes on with a word whose last character is `previous`, and the others are words. -/
def GoesOnFrom (previous : Char) : List (List Char) → Prop
  | [] => False
  | piece :: others =>
    (∀ char ∈ piece, char.isAlphanum = true)
      ∧ (previous :: piece).IsChain (fun first second => ¬ MixesCase first second)
      ∧ ∀ word ∈ others, IsWord word

theorem isWord_cons_iff {first : Char} {rest : List Char} :
    IsWord (first :: rest)
      ↔ first.isAlpha = true ∧ (∀ char ∈ rest, char.isAlphanum = true)
        ∧ (first :: rest).IsChain (fun first second => ¬ MixesCase first second) := by
  constructor
  · rintro ⟨⟨_, _, ⟨rfl, rfl⟩, letter⟩, goesOn, unmixed⟩
    exact ⟨letter, fun char inside => goesOn char (List.mem_cons_of_mem _ inside), unmixed⟩
  · rintro ⟨letter, goesOn, unmixed⟩
    refine ⟨⟨first, rest, rfl, letter⟩, fun char inside => ?_, unmixed⟩
    rcases List.mem_cons.mp inside with rfl | inRest
    · exact Bool.or_eq_true_iff.mpr (Or.inl letter)
    · exact goesOn char inRest

theorem checkNameFrom_cons_eq_ok_iff {name : String} {previous : Option Char} {char : Char}
    {rest : List Char} :
    checkNameFrom name previous (char :: rest) = .ok ()
      ↔ charFault? name previous char = none ∧ checkNameFrom name (some char) rest = .ok () := by
  rw [checkNameFrom]
  cases charFault? name previous char <;> simp

/-- **The check of the rest of a name**: within a word the rest goes on with it, and where a word must
begin, the rest is made of words. -/
theorem checkNameFrom_eq_ok_iff (name : String) (chars : List Char) :
    (∀ previous, previous.isAlphanum = true →
        (checkNameFrom name (some previous) chars = .ok ()
          ↔ GoesOnFrom previous (Text.segments '-' chars)))
      ∧ ∀ previous, (previous = none ∧ chars ≠ []) ∨ previous = some '-' →
        (checkNameFrom name previous chars = .ok ()
          ↔ ∀ word ∈ Text.segments '-' chars, IsWord word) := by
  induction chars with
  | nil =>
    constructor
    · intro previous within
      have noHyphen : previous ≠ '-' := by
        rintro rfl
        cases within
      simp [checkNameFrom, noHyphen, Text.segments, GoesOnFrom]
    · rintro previous (⟨-, nonempty⟩ | rfl)
      · exact absurd rfl nonempty
      · have noWord : ¬ IsWord [] := by
          rintro ⟨⟨_, _, ⟨⟩, -⟩, -, -⟩
        simp [checkNameFrom, Text.segments, noWord]
  | cons char rest ih =>
    obtain ⟨within, start⟩ := ih
    by_cases hyphen : char = '-'
    · subst hyphen
      rw [Text.segments_cons_self]
      constructor
      · intro previous isAlphanum
        rw [checkNameFrom_cons_eq_ok_iff, charFault?_eq_none_iff_of_isAlphanum isAlphanum,
          start _ (Or.inr rfl)]
        simp [GoesOnFrom]
      · intro previous starts
        have noWord : ¬ IsWord [] := by
          rintro ⟨⟨_, _, ⟨⟩, -⟩, -, -⟩
        rw [checkNameFrom_cons_eq_ok_iff, charFault?_eq_none_iff_of_start (starts.imp_left And.left)]
        simp [noWord, show '-'.isAlpha = false from rfl]
    · obtain ⟨piece, others, ofRest, ofAll⟩ := Text.exists_segments_cons hyphen rest
      rw [ofAll]
      rw [ofRest] at within
      constructor
      · intro previous isAlphanum
        rw [checkNameFrom_cons_eq_ok_iff, charFault?_eq_none_iff_of_isAlphanum isAlphanum]
        constructor
        · rintro ⟨follows, checked⟩
          obtain ⟨valid, unmixed⟩ := follows.resolve_right hyphen
          obtain ⟨goesOn, chain, words⟩ := (within char valid).mp checked
          exact ⟨List.forall_mem_cons.mpr ⟨valid, goesOn⟩, List.isChain_cons_cons.mpr ⟨unmixed, chain⟩,
            words⟩
        · rintro ⟨goesOn, chain, words⟩
          obtain ⟨valid, goesOn⟩ := List.forall_mem_cons.mp goesOn
          obtain ⟨unmixed, chain⟩ := List.isChain_cons_cons.mp chain
          exact ⟨Or.inl ⟨valid, unmixed⟩, (within char valid).mpr ⟨goesOn, chain, words⟩⟩
      · intro previous starts
        rw [checkNameFrom_cons_eq_ok_iff, charFault?_eq_none_iff_of_start (starts.imp_left And.left),
          List.forall_mem_cons, isWord_cons_iff, and_assoc]
        refine and_congr_right fun letter => ?_
        rw [within char (Bool.or_eq_true_iff.mpr (Or.inl letter)), GoesOnFrom, and_assoc]

/-! ### Whole names -/

/-- **The names are the nonempty texts without faults.** -/
theorem isName_iff_isKebab {name : String} : IsName name ↔ IsKebab name.toList := by
  have words : IsKebab name.toList ↔ ∀ word ∈ Text.segments '-' name.toList, IsWord word := by
    constructor
    · rintro ⟨words, nonempty, areWords, joined⟩
      have apart : ∀ word ∈ words, '-' ∉ word := fun word member inside =>
        absurd ((areWords word member).goesOn _ inside) (by decide)
      rwa [joined, Text.segments_intercalate nonempty apart]
    · intro areWords
      exact ⟨_, Text.segments_ne_nil _ _, areWords, (Text.intercalate_segments _ _).symm⟩
  rw [words, IsName, checkName]
  by_cases empty : name = ""
  · subst empty
    have noWord : ¬ IsWord [] := by
      rintro ⟨⟨_, _, ⟨⟩, -⟩, -, -⟩
    simp [Text.segments, noWord]
  · have nonempty : name.toList ≠ [] := fun same => empty (String.toList_eq_nil_iff.mp same)
    rw [(checkNameFrom_eq_ok_iff name name.toList).2 none (Or.inl ⟨rfl, nonempty⟩)]
    exact and_iff_right empty

/-- A name consists of letters, digits and hyphens. -/
theorem not_mem_of_isName {name : String} (valid : IsName name) {char : Char}
    (other : Version.isIdentifierChar char = false) : char ∉ name.toList := by
  obtain ⟨words, -, areWords, joined⟩ := isName_iff_isKebab.mp valid
  rw [joined]
  intro member
  rcases Text.mem_intercalate member with rfl | ⟨word, isWord, inside⟩
  · cases other
  · simp [Version.isIdentifierChar, (areWords word isWord).goesOn char inside] at other

end WitGraph.Ident
