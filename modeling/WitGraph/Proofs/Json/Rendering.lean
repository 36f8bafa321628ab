/-
**Reading what has been written.**

A value that holds only text and natural numbers (`IsPlain`) is read back from its rendering,
whatever the layout: `parse?_render`.

The reader is followed through the rendering part by part. `State.read` is what it makes of the rest
of a text, and each part has one equation that says in which state the rest is read:

* `read_blanks`, `read_quote`, `read_nat` for the tokens;
* `read_items`, `read_members` for what stands between brackets;
* `recovers_of_isPlain` for a whole value, by induction on it.

A number ends only where something else begins, so the equations hold for a rest that `Follows` a
value.
-/

import WitGraph.Json.Printer
import WitGraph.Json.Reader
import WitGraph.Proofs.Numeral

namespace WitGraph.Json

open Text (Symbol)

/-! ### Values that are written -/

/-- The value holds only text and natural numbers. -/
inductive IsPlain : Json → Prop
  | null : IsPlain .null
  | bool (value : Bool) : IsPlain (.bool value)
  | nat (value : Nat) : IsPlain (.nat value)
  | text (value : String) : IsPlain (.text value)
  | array {items : List Json} (plain : ∀ item ∈ items, IsPlain item) : IsPlain (.array items)
  | record {members : List (String × Json)} (plain : ∀ member ∈ members, IsPlain member.2) :
      IsPlain (.record members)

/-- Line breaks are blank, and so is what stands behind a colon. -/
structure Style.IsBlank (style : Style) : Prop where
  newline : ∀ depth, ∀ char ∈ (style.newline depth).toList, isBlank char = true
  colon : ∃ blanks, style.colon.toList = ':' :: blanks ∧ ∀ char ∈ blanks, isBlank char = true

/-- Parts on lines of their own are set apart by blanks. -/
theorem indented_isBlank : indented.IsBlank where
  newline depth char member := by
    rw [indented, String.toList_ofList] at member
    rcases List.mem_cons.mp member with rfl | space
    · rfl
    · rw [List.eq_of_mem_replicate space]
      rfl
  colon := ⟨[' '], rfl, by simp [isBlank]⟩

/-- A value may begin here. -/
def Place.AwaitsValue (place : Place) : Prop :=
  place = .value ∨ place = .firstItem

namespace State

/-! ### Reading the rest of a text -/

/-- What the machine makes of the rest of a text. -/
def read (state : State) (text : List Char) : Option Json :=
  (state.run (text.map Symbol.char)).bind State.finish

theorem read_cons (state : State) (char : Char) (rest : List Char) :
    state.read (char :: rest) = (state.step (.char char)).bind (·.read rest) := by
  simp only [read, List.map_cons, run]
  cases state.step (.char char) <;> rfl

theorem read_nil (state : State) : state.read [] = state.finish := rfl

/-- A text that leads from one state to another may be left out. -/
theorem read_append {state next : State} {text : List Char}
    (leads : state.run (text.map Symbol.char) = some next) (rest : List Char) :
    state.read (text ++ rest) = next.read rest := by
  rw [read, List.map_append, run_append, leads]
  rfl

/-- Blanks between tokens do not matter. -/
theorem read_blanks {blanks : List Char} (blank : ∀ char ∈ blanks, isBlank char = true)
    (place : Place) (frames : List Frame) (rest : List Char) :
    (State.mk .between place frames).read (blanks ++ rest)
      = (State.mk .between place frames).read rest := by
  induction blanks with
  | nil => rfl
  | cons char others ih =>
    have first : (State.mk .between place frames).step (.char char)
        = some ⟨.between, place, frames⟩ := by
      simp [step, between, blank char (List.mem_cons_self ..)]
    rw [List.cons_append, read_cons, first]
    exact ih fun other member => blank other (List.mem_cons_of_mem _ member)

/-! ### Strings -/

/-- The piece of a string literal that a character is written as. -/
def pieceOf (char : Char) : Piece :=
  if escapeChar char = controlEscape char then .unit char.toNat else .char char

theorem hexValue?_digitChar : ∀ value < 16, hexValue? (Nat.digitChar value) = some value := by
  decide

theorem run_controlEscape {char : Char} (control : char.toNat < 0x20) (pieces : List Piece)
    (place : Place) (frames : List Frame) :
    (State.mk (.string .plain pieces) place frames).run ((controlEscape char).map Symbol.char)
      = some ⟨.string .plain (.unit char.toNat :: pieces), place, frames⟩ := by
  have high := hexValue?_digitChar (char.toNat / 16) (by omega)
  have low := hexValue?_digitChar (char.toNat % 16) (by omega)
  have zero : hexValue? '0' = some 0 := rfl
  have whole : char.toNat / 16 * 16 + char.toNat % 16 = char.toNat := by omega
  simp [controlEscape, run, step, inString, zero, high, low, whole]

theorem lt_of_escapeChar_eq {char : Char} (escaped : escapeChar char = controlEscape char) :
    char.toNat < 0x20 := by
  refine Nat.lt_of_not_le fun large => ?_
  unfold escapeChar at escaped
  split at escaped <;> simp_all [controlEscape, Nat.not_lt.mpr]

theorem run_escapeChar (char : Char) (pieces : List Piece) (place : Place) (frames : List Frame) :
    (State.mk (.string .plain pieces) place frames).run ((escapeChar char).map Symbol.char)
      = some ⟨.string .plain (pieceOf char :: pieces), place, frames⟩ := by
  by_cases control : escapeChar char = controlEscape char
  · rw [control, run_controlEscape (lt_of_escapeChar_eq control), pieceOf, if_pos control]
  · rw [pieceOf, if_neg control]
    unfold escapeChar at control ⊢
    split at control
    case h_8 =>
      by_cases small : char.toNat < 0x20
      · exact absurd (if_pos small) control
      · rw [if_neg small]
        simp_all only [run, step, inString, List.map_cons, List.map_nil, if_false]
    all_goals simp_all [run, step, inString, shortEscape?]

/-- A code unit that is no surrogate stands for a character of its own. -/
theorem readPieces_unit {code : Nat} (high : isHighSurrogate code = false)
    (low : isLowSurrogate code = false) (after : List Char) (rest : List Piece) :
    readPieces after (.unit code :: rest) = readPieces (Char.ofNat code :: after) rest := by
  cases rest with
  | nil => simp [readPieces, high, low]
  | cons piece rest => cases piece <;> simp [readPieces, high, low]

/-- The pieces of a text are read back. -/
theorem readPieces_map_pieceOf (text after : List Char) :
    readPieces after (text.map pieceOf) = some (after.reverse ++ text) := by
  induction text generalizing after with
  | nil => simp [readPieces]
  | cons char rest ih =>
    have first : readPieces after (pieceOf char :: rest.map pieceOf)
        = readPieces (char :: after) (rest.map pieceOf) := by
      unfold pieceOf
      split
      · rename_i escaped
        have small := lt_of_escapeChar_eq escaped
        rw [readPieces_unit, Char.ofNat_toNat]
        · simp [isHighSurrogate]
          omega
        · simp [isLowSurrogate]
          omega
      · rfl
    rw [List.map_cons, first, ih]
    simp

/-- The characters of a text lead through the string literal. -/
theorem run_escaped (text : List Char) (pieces : List Piece) (place : Place)
    (frames : List Frame) :
    (State.mk (.string .plain pieces) place frames).run
        ((text.flatMap escapeChar).map Symbol.char)
      = some ⟨.string .plain ((text.map pieceOf).reverse ++ pieces), place, frames⟩ := by
  induction text generalizing pieces with
  | nil => rfl
  | cons char rest ih =>
    rw [List.flatMap_cons, List.map_append, run_append, run_escapeChar, Option.bind_some, ih]
    simp

theorem read_quote (text : String) (pieces : List Piece) (place : Place) (frames : List Frame)
    (rest : List Char) (opened : pieces = []) :
    (State.mk (.string .plain pieces) place frames).read
        (text.toList.flatMap escapeChar ++ '"' :: rest)
      = (completeString (some text) place frames).bind (·.read rest) := by
  have contents : readContents (text.toList.map pieceOf) = some text := by
    simp [readContents, readPieces_map_pieceOf]
  rw [read_append (run_escaped text.toList pieces place frames), read_cons, opened]
  simp [step, inString, contents]

/-! ### Numbers -/

/-- Neither a digit nor anything else that a number may go on with. -/
def isDelimiter (char : Char) : Bool :=
  isBlank char || char = ',' || char = ']' || char = '}'

/-- The text is at its end or goes on with something that is no part of a value. -/
def Follows (rest : List Char) : Prop :=
  ∀ char ∈ rest.head?, isDelimiter char = true

theorem run_digits {digits : List Char} (areDigits : ∀ char ∈ digits, char.isDigit = true)
    (soFar : NumberSoFar) (place : Place) (frames : List Frame) :
    (State.mk (.number .whole soFar) place frames).run (digits.map Symbol.char)
      = some ⟨.number .whole { soFar with whole := digits.reverse ++ soFar.whole }, place, frames⟩ := by
  induction digits generalizing soFar with
  | nil => rfl
  | cons char rest ih =>
    have digit := areDigits char (List.mem_cons_self ..)
    have others := ih (fun other member => areDigits other (List.mem_cons_of_mem _ member))
    simp [run, step, NumberPhase.next?, digit, others]

/-- A number does not go on with a delimiter. -/
theorem next?_delimiter {char : Char} (delimiter : isDelimiter char = true) (soFar : NumberSoFar)
    (phase : NumberPhase) (integral : phase = .zero ∨ phase = .whole) :
    phase.next? soFar char = none := by
  have apart : char.isDigit = false ∧ char ≠ '.' ∧ char ≠ 'e' ∧ char ≠ 'E' := by
    simp only [isDelimiter, isBlank, Bool.or_eq_true, decide_eq_true_eq] at delimiter
    rcases delimiter with (((((rfl | rfl) | rfl) | rfl) | rfl) | rfl) | rfl <;> decide
  obtain ⟨noDigit, noPoint, noMark, noCapital⟩ := apart
  rcases integral with rfl | rfl <;>
    simp [NumberPhase.next?, NumberPhase.next?.afterWhole, NumberPhase.next?.isMark, noDigit,
      noPoint, noMark, noCapital]

/-- A number is complete where something else follows. -/
theorem read_number {phase : NumberPhase} (integral : phase = .zero ∨ phase = .whole)
    (soFar : NumberSoFar) (place : Place) {frames : List Frame} {target : State}
    (completed : complete (.number soFar.finish) frames = some target) {rest : List Char}
    (follows : Follows rest) :
    (State.mk (.number phase soFar) place frames).read rest = target.read rest := by
  have isComplete : phase.isComplete = true := by
    rcases integral with rfl | rfl <;> rfl
  cases rest with
  | nil =>
    rw [read_nil, read_nil]
    unfold complete at completed
    split at completed <;> cases completed <;> simp [finish, isComplete]
  | cons char rest =>
    have ends := next?_delimiter (follows char rfl) soFar phase integral
    have between : target.mode = .between := by
      unfold complete at completed
      split at completed <;> cases completed <;> rfl
    rw [read_cons, read_cons]
    simp [step, ends, isComplete, completed, between]

/-! ### The beginning of a value -/

/-- A value begins with its first character. -/
theorem step_start {place : Place} (awaits : place.AwaitsValue) (frames : List Frame)
    {char : Char} (mark : isBlank char = false) (apart : char ≠ ']') :
    (State.mk .between place frames).step (.char char) = start place frames char := by
  rcases awaits with rfl | rfl <;> simp [step, between, mark, apart]

theorem start_digit {char : Char} (digit : char.isDigit = true) (nonzero : char ≠ '0')
    (place : Place) (frames : List Frame) :
    start place frames char
      = some ⟨.number .whole { negative := false, whole := [char] }, place, frames⟩ := by
  unfold start
  split
  case h_9 => rw [if_pos digit]
  all_goals first | exact absurd rfl nonzero | exact absurd digit (by decide)

theorem read_nat (value : Nat) {place : Place} (awaits : place.AwaitsValue)
    {frames : List Frame} {target : State}
    (completed : complete (.nat value) frames = some target) {rest : List Char}
    (follows : Follows rest) :
    (State.mk .between place frames).read (Nat.toDigits 10 value ++ rest) = target.read rest := by
  by_cases zero : value = 0
  · subst zero
    rw [Nat.toDigits_zero, List.singleton_append, read_cons, step_start awaits frames rfl (by decide)]
    exact read_number (Or.inl rfl) { negative := false, whole := ['0'] } place completed follows
  · obtain ⟨first, digits, written, nonzero⟩ := toDigits_eq_cons (Nat.pos_of_ne_zero zero)
    have areDigits : ∀ char ∈ first :: digits, char.isDigit = true := fun char member =>
      isDigit_of_mem_toDigits (written ▸ member)
    have isDigit := areDigits first (List.mem_cons_self ..)
    have mark : isBlank first = false ∧ first ≠ ']' := by
      simp only [isBlank, Bool.or_eq_false_iff, decide_eq_false_iff_not]
      refine ⟨⟨⟨⟨?_, ?_⟩, ?_⟩, ?_⟩, ?_⟩ <;>
      · rintro rfl
        exact absurd isDigit (by decide)
    have others := run_digits (fun char member => areDigits char (List.mem_cons_of_mem _ member))
      { negative := false, whole := [first] } place frames
    rw [written, List.cons_append, read_cons, step_start awaits frames mark.1 mark.2,
      start_digit isDigit nonzero, Option.bind_some, read_append others]
    refine read_number (Or.inr rfl) _ place ?_ follows
    simpa [NumberSoFar.finish, Json.nat, written] using completed

theorem read_word {missing : List Char} (nonempty : missing ≠ []) {value : Json} {place : Place}
    {frames : List Frame} {target : State} (completed : complete value frames = some target)
    (rest : List Char) :
    (State.mk (.word missing value) place frames).read (missing ++ rest) = target.read rest := by
  induction missing with
  | nil => exact absurd rfl nonempty
  | cons char others ih =>
    rw [List.cons_append, read_cons]
    cases others with
    | nil => simp [step, completed]
    | cons next others =>
      have goesOn : (State.mk (.word (char :: next :: others) value) place frames).step (.char char)
          = some ⟨.word (next :: others) value, place, frames⟩ := by
        simp [step]
      rw [goesOn]
      exact ih (by simp)

/-! ### Arrays and objects -/

/-- The rendering of a value, as characters. -/
abbrev rendered (style : Style) (depth : Nat) (value : Json) : List Char :=
  (renderAt style depth value).toList

/-- The rendering of a member of an object, as characters. -/
def renderedMember (style : Style) (depth : Nat) (member : String × Json) : List Char :=
  (quote member.1).toList ++ style.colon.toList ++ rendered style depth member.2

theorem renderItems_eq_map (style : Style) (depth : Nat) (items : List Json) :
    renderItems style depth items = items.map (renderAt style depth) := by
  induction items with
  | nil => rfl
  | cons item rest ih => rw [renderItems, ih, List.map_cons]

theorem map_toList_renderMembers (style : Style) (depth : Nat) (members : List (String × Json)) :
    (renderMembers style depth (members.map fun member => (some member.1, member.2))).map
        String.toList
      = members.map (renderedMember style depth) := by
  induction members with
  | nil => rfl
  | cons member rest ih =>
    rw [List.map_cons, renderMembers, List.map_cons, ih]
    simp [renderMember, renderedMember, rendered]

/-- What stands between two parts: a comma and a line break. -/
def comma (style : Style) (depth : Nat) : List Char :=
  ',' :: (style.newline depth).toList

theorem toList_bracketed (style : Style) (depth : Nat) (opening closing : String)
    {parts : List String} (nonempty : parts ≠ []) :
    (bracketed style depth opening closing parts).toList
      = opening.toList ++ ((style.newline (depth + 1)).toList
        ++ ((comma style (depth + 1)).intercalate (parts.map String.toList)
        ++ ((style.newline depth).toList ++ closing.toList))) := by
  simp [bracketed, nonempty, comma, String.toList_intercalate]

/-- Something that follows a value may stand behind blanks. -/
theorem follows_append {blanks : List Char} (blank : ∀ char ∈ blanks, isBlank char = true)
    {rest : List Char} (follows : Follows rest) : Follows (blanks ++ rest) := by
  cases blanks with
  | nil => exact follows
  | cons char others =>
    rintro _ ⟨⟩
    simp [isDelimiter, blank char (List.mem_cons_self ..)]

/-- The reader recovers a value from its rendering, wherever it stands. -/
def Recovers (style : Style) (value : Json) : Prop :=
  ∀ (depth : Nat) (place : Place) (frames : List Frame) (target : State) (rest : List Char),
    place.AwaitsValue → complete value frames = some target → Follows rest →
    (State.mk .between place frames).read (rendered style depth value ++ rest) = target.read rest

variable {style : Style}

/-- After a comma the next item of an array is due. -/
theorem read_comma_array (blank : style.IsBlank) (depth : Nat) (items : List Json)
    (outer : List Frame) (rest : List Char) :
    (State.mk .between .separator (.array items :: outer)).read (comma style depth ++ rest)
      = (State.mk .between .value (.array items :: outer)).read rest := by
  rw [comma, List.cons_append, read_cons]
  exact read_blanks (blank.newline depth) _ _ rest

/-- After a comma the next key of an object is due. -/
theorem read_comma_object (blank : style.IsBlank) (depth : Nat) (members : List (Contents × Json))
    (outer : List Frame) (rest : List Char) :
    (State.mk .between .separator (.object members none :: outer)).read (comma style depth ++ rest)
      = (State.mk .between .key (.object members none :: outer)).read rest := by
  rw [comma, List.cons_append, read_cons]
  exact read_blanks (blank.newline depth) _ _ rest

theorem read_items (blank : style.IsBlank) (depth : Nat) (first : Json) (others done : List Json)
    (outer : List Frame) {place : Place} (awaits : place.AwaitsValue)
    (recovers : ∀ item ∈ first :: others, Recovers style item) {rest : List Char}
    (follows : Follows rest) :
    (State.mk .between place (.array done :: outer)).read
        ((comma style depth).intercalate ((first :: others).map (rendered style depth)) ++ rest)
      = (State.mk .between .separator (.array ((first :: others).reverse ++ done) :: outer)).read
          rest := by
  induction others generalizing first done place with
  | nil =>
    simp only [List.map_cons, List.map_nil, List.intercalate_singleton]
    exact recovers first (List.mem_cons_self ..) depth place _ _ rest awaits rfl follows
  | cons second others ih =>
    rw [List.map_cons, List.map_cons, List.intercalate_cons_cons, List.append_assoc,
      List.append_assoc,
      recovers first (List.mem_cons_self ..) depth place (.array done :: outer) _ _ awaits rfl
        (by rintro _ ⟨⟩; rfl),
      read_comma_array blank, ← List.map_cons,
      ih second (first :: done) (Or.inl rfl)
        fun item member => recovers item (List.mem_cons_of_mem _ member)]
    simp

theorem read_member (blank : style.IsBlank) (depth : Nat) (member : String × Json)
    (done : List (Contents × Json)) (outer : List Frame) {place : Place}
    (awaits : place = .firstKey ∨ place = .key) (recovers : Recovers style member.2)
    {rest : List Char} (follows : Follows rest) :
    (State.mk .between place (.object done none :: outer)).read
        (renderedMember style depth member ++ rest)
      = (State.mk .between .separator (.object ((some member.1, member.2) :: done) none :: outer)).read
          rest := by
  obtain ⟨blanks, isColon, areBlank⟩ := blank.colon
  have opened : (State.mk .between place (.object done none :: outer)).step (.char '"')
      = some ⟨.string .plain [], place, .object done none :: outer⟩ := by
    rcases awaits with rfl | rfl <;> rfl
  have named : completeString (some member.1) place (.object done none :: outer)
      = some ⟨.between, .colon, .object done (some (some member.1)) :: outer⟩ := by
    rcases awaits with rfl | rfl <;> rfl
  have atColon : (State.mk .between .colon (.object done (some (some member.1)) :: outer)).step
      (.char ':') = some ⟨.between, .value, .object done (some (some member.1)) :: outer⟩ := rfl
  simp only [renderedMember, quote, isColon, String.toList_ofList, List.append_assoc,
    List.cons_append, List.nil_append]
  rw [read_cons, opened, Option.bind_some, read_quote _ _ _ _ _ rfl, named, Option.bind_some,
    read_cons, atColon, Option.bind_some, read_blanks areBlank]
  exact recovers depth .value _ _ rest (Or.inl rfl) rfl follows

theorem read_members (blank : style.IsBlank) (depth : Nat) (first : String × Json)
    (others : List (String × Json)) (done : List (Contents × Json)) (outer : List Frame)
    {place : Place} (awaits : place = .firstKey ∨ place = .key)
    (recovers : ∀ member ∈ first :: others, Recovers style member.2) {rest : List Char}
    (follows : Follows rest) :
    (State.mk .between place (.object done none :: outer)).read
        ((comma style depth).intercalate ((first :: others).map (renderedMember style depth))
          ++ rest)
      = (State.mk .between .separator
          (.object (((first :: others).map fun member => (some member.1, member.2)).reverse ++ done)
            none :: outer)).read rest := by
  induction others generalizing first done place with
  | nil =>
    simp only [List.map_cons, List.map_nil, List.intercalate_singleton]
    exact read_member blank depth first done outer awaits (recovers first (List.mem_cons_self ..))
      follows
  | cons second others ih =>
    rw [List.map_cons, List.map_cons, List.intercalate_cons_cons, List.append_assoc,
      List.append_assoc,
      read_member blank depth first done outer awaits (recovers first (List.mem_cons_self ..))
        (by rintro _ ⟨⟩; rfl),
      read_comma_object blank, ← List.map_cons,
      ih second _ (Or.inr rfl) fun member inside => recovers member (List.mem_cons_of_mem _ inside)]
    simp

/-! ### Whole values -/

theorem read_arrayEnd {blanks : List Char} (blank : ∀ char ∈ blanks, isBlank char = true)
    {items : List Json} {place : Place} (ends : place = .firstItem ∨ place = .separator)
    {outer : List Frame} {target : State}
    (completed : complete (.array items.reverse) outer = some target) (rest : List Char) :
    (State.mk .between place (.array items :: outer)).read (blanks ++ ']' :: rest)
      = target.read rest := by
  have closed : (State.mk .between place (.array items :: outer)).step (.char ']')
      = some target := by
    rcases ends with rfl | rfl <;> exact completed
  rw [read_blanks blank, read_cons, closed, Option.bind_some]

theorem read_objectEnd {blanks : List Char} (blank : ∀ char ∈ blanks, isBlank char = true)
    {members : List (Contents × Json)} {place : Place}
    (ends : place = .firstKey ∨ place = .separator) {outer : List Frame} {target : State}
    (completed : complete (.object members.reverse) outer = some target) (rest : List Char) :
    (State.mk .between place (.object members none :: outer)).read (blanks ++ '\x7d' :: rest)
      = target.read rest := by
  have closed : (State.mk .between place (.object members none :: outer)).step (.char '\x7d')
      = some target := by
    rcases ends with rfl | rfl <;> exact completed
  rw [read_blanks blank, read_cons, closed, Option.bind_some]

theorem recovers_array (blank : style.IsBlank) {items : List Json}
    (recovers : ∀ item ∈ items, Recovers style item) : Recovers style (.array items) := by
  intro depth place frames target rest awaits completed follows
  have opened : (State.mk .between place frames).step (.char '[')
      = some ⟨.between, .firstItem, .array [] :: frames⟩ :=
    step_start awaits frames rfl (by decide)
  cases items with
  | nil =>
    -- nothing stands between the brackets of an empty array, not even a line break
    have brackets : rendered style depth (.array []) = ['[', ']'] := by
      simp [rendered, renderAt, renderItems, bracketed]
    rw [brackets, List.cons_append, read_cons, opened, Option.bind_some]
    have noBlanks : ∀ char ∈ ([] : List Char), isBlank char = true := by simp
    have completed : complete (.array ([] : List Json).reverse) frames = some target := completed
    exact read_arrayEnd noBlanks (Or.inl rfl) completed rest
  | cons first others =>
    have parts : (renderItems style (depth + 1) (first :: others)).map String.toList
        = (first :: others).map (rendered style (depth + 1)) := by
      rw [renderItems_eq_map, List.map_map]
      rfl
    rw [rendered, renderAt, toList_bracketed _ _ _ _ (by simp [renderItems]), parts]
    simp only [List.append_assoc]
    rw [show "[".toList = ['['] from rfl, show "]".toList = [']'] from rfl, List.singleton_append,
      List.singleton_append, read_cons, opened, Option.bind_some, read_blanks (blank.newline _),
      read_items blank _ first others [] frames (Or.inr rfl) recovers]
    · refine read_arrayEnd (blank.newline depth) (Or.inr rfl) ?_ rest
      rw [List.append_nil, List.reverse_reverse]
      exact completed
    · exact follows_append (blank.newline depth) (by rintro _ ⟨⟩; rfl)

theorem recovers_record (blank : style.IsBlank) {members : List (String × Json)}
    (recovers : ∀ member ∈ members, Recovers style member.2) :
    Recovers style (.record members) := by
  intro depth place frames target rest awaits completed follows
  have opened : (State.mk .between place frames).step (.char '\x7b')
      = some ⟨.between, .firstKey, .object [] none :: frames⟩ :=
    step_start awaits frames rfl (by decide)
  cases members with
  | nil =>
    have brackets : rendered style depth (.record []) = ['\x7b', '\x7d'] := by
      simp [rendered, Json.record, renderAt, renderMembers, bracketed]
    rw [brackets, List.cons_append, read_cons, opened, Option.bind_some]
    have noBlanks : ∀ char ∈ ([] : List Char), isBlank char = true := by simp
    have completed : complete (.object ([] : List (Contents × Json)).reverse) frames
        = some target := completed
    exact read_objectEnd noBlanks (Or.inl rfl) completed rest
  | cons first others =>
    rw [rendered, Json.record, renderAt,
      toList_bracketed _ _ _ _ (by simp [renderMembers]), map_toList_renderMembers]
    simp only [List.append_assoc]
    rw [show "\x7b".toList = ['\x7b'] from rfl, show "\x7d".toList = ['\x7d'] from rfl,
      List.singleton_append, List.singleton_append, read_cons, opened, Option.bind_some,
      read_blanks (blank.newline _), read_members blank _ first others [] frames (Or.inl rfl) recovers]
    · refine read_objectEnd (blank.newline depth) (Or.inr rfl) ?_ rest
      rw [List.append_nil, List.reverse_reverse]
      exact completed
    · exact follows_append (blank.newline depth) (by rintro _ ⟨⟩; rfl)

/-- **A plain value is recovered from its rendering.** -/
theorem recovers_of_isPlain (blank : style.IsBlank) {value : Json} (plain : value.IsPlain) :
    Recovers style value := by
  induction plain with
  | null =>
    intro depth place frames target rest awaits completed follows
    have word : rendered style depth .null = 'n' :: ['u', 'l', 'l'] := by simp [rendered, renderAt]
    rw [word, List.cons_append, read_cons, step_start awaits frames rfl (by decide)]
    exact read_word (by simp) completed rest
  | bool value =>
    intro depth place frames target rest awaits completed follows
    cases value with
    | false =>
      have word : rendered style depth (.bool false) = 'f' :: ['a', 'l', 's', 'e'] := by
        simp [rendered, renderAt]
      rw [word, List.cons_append, read_cons, step_start awaits frames rfl (by decide)]
      exact read_word (by simp) completed rest
    | true =>
      have word : rendered style depth (.bool true) = 't' :: ['r', 'u', 'e'] := by
        simp [rendered, renderAt]
      rw [word, List.cons_append, read_cons, step_start awaits frames rfl (by decide)]
      exact read_word (by simp) completed rest
  | nat value =>
    intro depth place frames target rest awaits completed follows
    have digits : rendered style depth (.nat value) = Nat.toDigits 10 value := by
      simp [rendered, renderAt, numberText, Json.nat, exponentText]
    rw [digits]
    exact read_nat value awaits completed follows
  | text value =>
    intro depth place frames target rest awaits completed follows
    have opened : (State.mk .between place frames).step (.char '"')
        = some ⟨.string .plain [], place, frames⟩ :=
      step_start awaits frames rfl (by decide)
    have ended : completeString (some value) place frames = some target := by
      rcases awaits with rfl | rfl <;> exact completed
    simp only [rendered, renderAt, Json.text, quote, Option.getD_some, String.toList_ofList,
      List.append_assoc, List.cons_append, List.nil_append]
    rw [read_cons, opened, Option.bind_some, read_quote _ _ _ _ _ rfl, ended, Option.bind_some]
  | array _ ih => exact recovers_array blank ih
  | record _ ih => exact recovers_record blank ih

end State

/-- **Reading undoes writing**, whatever the layout. -/
theorem parse?_render {style : Style} (blank : style.IsBlank) {value : Json}
    (plain : value.IsPlain) : parse? (Text.symbols (value.render style)) = some value := by
  have recovered := State.recovers_of_isPlain blank plain 0 .value [] _ [] (Or.inl rfl) rfl
    (by rintro _ ⟨⟩)
  rw [List.append_nil] at recovered
  exact recovered

end WitGraph.Json
