/-
**Reading JSON.**

`Json.parse?` reads a JSON text: exactly one value with blanks around it, and nothing that the
standard does not allow. It is a machine that takes one symbol at a time, so it needs no bound on
the nesting of the text. The state of the machine has three parts:

* the `Mode` is what is being read: a word, a number, a string, or something between tokens;
* the `Place` is what may come next between tokens;
* the frames are the arrays and objects that are open, the innermost first.

`run_append` says that reading one text after another is reading their concatenation.
-/

import WitGraph.Json.Basic
import WitGraph.Text.Symbol

namespace WitGraph.Json

open Text (Symbol)

/-! ### Strings -/

/-- A part of a string literal. -/
inductive Piece where
  /-- A character, written plainly or by a short escape. -/
  | char (value : Char)
  /-- A UTF-16 code unit, written by its number. -/
  | unit (code : Nat)
  /-- A byte that is no character. -/
  | stray
deriving DecidableEq, Repr

/-- The first half of a surrogate pair. -/
def isHighSurrogate (code : Nat) : Bool := 0xD800 ≤ code && code < 0xDC00

/-- The second half of a surrogate pair. -/
def isLowSurrogate (code : Nat) : Bool := 0xDC00 ≤ code && code < 0xE000

/-- The character that two halves of a surrogate pair stand for. -/
def joinSurrogates (high low : Nat) : Char :=
  Char.ofNat (0x10000 + (high - 0xD800) * 0x400 + (low - 0xDC00))

/-- The characters of a string literal, put in front of `after` in reverse; none if a surrogate is
alone or a byte is stray. -/
def readPieces (after : List Char) : List Piece → Option (List Char)
  | [] => some after.reverse
  | .char value :: rest => readPieces (value :: after) rest
  | .stray :: _ => none
  | .unit high :: .unit low :: rest =>
    if isHighSurrogate high && isLowSurrogate low then
      readPieces (joinSurrogates high low :: after) rest
    else if isHighSurrogate high || isLowSurrogate high then none
    else readPieces (Char.ofNat high :: after) (.unit low :: rest)
  | .unit code :: rest =>
    if isHighSurrogate code || isLowSurrogate code then none
    else readPieces (Char.ofNat code :: after) rest

/-- The contents of a string literal. -/
def readContents (pieces : List Piece) : Contents :=
  (readPieces [] pieces).map String.ofList

/-- Where the machine is within a string literal. -/
inductive StringPhase where
  | plain
  /-- After a backslash. -/
  | escape
  /-- Within the digits of a code unit: how many are missing, and the value so far. -/
  | code (missing : Nat) (value : Nat)
deriving DecidableEq, Repr

/-- The character of a short escape. -/
def shortEscape? : Char → Option Char
  | '"' => some '"'
  | '\\' => some '\\'
  | '/' => some '/'
  | 'b' => some '\x08'
  | 'f' => some '\x0c'
  | 'n' => some '\n'
  | 'r' => some '\r'
  | 't' => some '\t'
  | _ => none

/-- The value of a hexadecimal digit. -/
def hexValue? (char : Char) : Option Nat :=
  if char.isDigit then some (char.toNat - '0'.toNat)
  else if 'a' ≤ char ∧ char ≤ 'f' then some (char.toNat - 'a'.toNat + 10)
  else if 'A' ≤ char ∧ char ≤ 'F' then some (char.toNat - 'A'.toNat + 10)
  else none

/-! ### Numbers -/

/-- Where the machine is within a number. -/
inductive NumberPhase where
  /-- After the minus sign. -/
  | sign
  /-- After a leading zero. -/
  | zero
  /-- Within the digits before the point. -/
  | whole
  /-- After the point. -/
  | point
  /-- Within the digits after the point. -/
  | fraction
  /-- After the letter of the exponent. -/
  | mark
  /-- After the sign of the exponent. -/
  | markSign
  /-- Within the digits of the exponent. -/
  | exponent
deriving DecidableEq, Repr

/-- A number may end here. -/
def NumberPhase.isComplete : NumberPhase → Bool
  | .zero | .whole | .fraction | .exponent => true
  | .sign | .point | .mark | .markSign => false

/-- The number so far, each group of digits with the latest digit first. -/
structure NumberSoFar where
  negative : Bool
  whole : List Char := []
  fraction : List Char := []
  exponent : Option (Bool × List Char) := none
deriving DecidableEq, Repr

/-- The number once it is complete. -/
def NumberSoFar.finish (number : NumberSoFar) : Number where
  negative := number.negative
  whole := number.whole.reverse
  fraction := number.fraction.reverse
  exponent := number.exponent.map fun (negative, digits) => (negative, digits.reverse)

/-- The number with one more digit of the exponent. -/
def NumberSoFar.pushExponent (number : NumberSoFar) (digit : Char) : NumberSoFar :=
  { number with
    exponent := some <| match number.exponent with
      | none => (false, [digit])
      | some (negative, digits) => (negative, digit :: digits) }

/-- The phase and the number after one more character, if the number goes on with it. -/
def NumberPhase.next? (number : NumberSoFar) (char : Char) :
    NumberPhase → Option (NumberPhase × NumberSoFar)
  | .sign =>
    if char = '0' then some (.zero, { number with whole := [char] })
    else if char.isDigit then some (.whole, { number with whole := [char] })
    else none
  | .zero => afterWhole
  | .whole =>
    if char.isDigit then some (.whole, { number with whole := char :: number.whole })
    else afterWhole
  | .point => if char.isDigit then some (.fraction, { number with fraction := [char] }) else none
  | .fraction =>
    if char.isDigit then some (.fraction, { number with fraction := char :: number.fraction })
    else if isMark then some (.mark, number)
    else none
  | .mark =>
    if char = '+' then some (.markSign, { number with exponent := some (false, []) })
    else if char = '-' then some (.markSign, { number with exponent := some (true, []) })
    else if char.isDigit then some (.exponent, number.pushExponent char)
    else none
  | .markSign | .exponent =>
    if char.isDigit then some (.exponent, number.pushExponent char) else none
where
  isMark : Bool := char = 'e' || char = 'E'
  afterWhole : Option (NumberPhase × NumberSoFar) :=
    if char = '.' then some (.point, number) else if isMark then some (.mark, number) else none

/-! ### The machine -/

/-- What is being read. -/
inductive Mode where
  | between
  /-- A word: the characters still missing, and its value. -/
  | word (missing : List Char) (value : Json)
  | number (phase : NumberPhase) (soFar : NumberSoFar)
  /-- A string: its pieces so far, the latest first. -/
  | string (phase : StringPhase) (pieces : List Piece)

/-- What may come next between tokens. -/
inductive Place where
  | value
  /-- The first item of an array, or its end. -/
  | firstItem
  /-- The first key of an object, or its end. -/
  | firstKey
  | key
  | colon
  /-- The separator before the next item or member, or the end of the array or object. -/
  | separator
  /-- The whole text has been read, and this is its value. -/
  | finished (value : Json)

/-- An open array or object, its parts with the latest one first. -/
inductive Frame where
  | array (items : List Json)
  /-- The complete members, and the key of the member whose value is missing. -/
  | object (members : List (Contents × Json)) (key : Option Contents)

/-- The state of the machine. -/
structure State where
  mode : Mode
  place : Place
  frames : List Frame

/-- The state before the first symbol. -/
def State.initial : State := ⟨.between, .value, []⟩

/-- The state after a complete value within `frames`. -/
def State.complete (value : Json) : List Frame → Option State
  | [] => some ⟨.between, .finished value, []⟩
  | .array items :: outer => some ⟨.between, .separator, .array (value :: items) :: outer⟩
  | .object members (some key) :: outer =>
    some ⟨.between, .separator, .object ((key, value) :: members) none :: outer⟩
  | .object _ none :: _ => none

/-- The state after a complete string, which is a key or a value. -/
def State.completeString (contents : Contents) (place : Place) (frames : List Frame) :
    Option State :=
  match place, frames with
  | .firstKey, .object members none :: outer | .key, .object members none :: outer =>
    some ⟨.between, .colon, .object members (some contents) :: outer⟩
  | .firstKey, _ | .key, _ => none
  | _, _ => complete (.string contents) frames

/-- The state after the end of the innermost array or object, ended by `closing`. -/
def State.close (closing : Char) : List Frame → Option State
  | .array items :: outer =>
    if closing = ']' then complete (.array items.reverse) outer else none
  | .object members none :: outer =>
    if closing = '}' then complete (.object members.reverse) outer else none
  | _ => none

/-- The blanks of JSON. -/
def isBlank (char : Char) : Bool :=
  char = ' ' || char = '\n' || char = '\t' || char = '\r'

/-- The state after the first character of a value. -/
def State.start (place : Place) (frames : List Frame) (char : Char) : Option State :=
  match char with
  | '{' => some ⟨.between, .firstKey, .object [] none :: frames⟩
  | '[' => some ⟨.between, .firstItem, .array [] :: frames⟩
  | '"' => some ⟨.string .plain [], place, frames⟩
  | 't' => some ⟨.word ['r', 'u', 'e'] (.bool true), place, frames⟩
  | 'f' => some ⟨.word ['a', 'l', 's', 'e'] (.bool false), place, frames⟩
  | 'n' => some ⟨.word ['u', 'l', 'l'] .null, place, frames⟩
  | '-' => some ⟨.number .sign { negative := true }, place, frames⟩
  | '0' => some ⟨.number .zero { negative := false, whole := ['0'] }, place, frames⟩
  | _ =>
    if char.isDigit then some ⟨.number .whole { negative := false, whole := [char] }, place, frames⟩
    else none

/-- The state after a character between tokens. -/
def State.between (place : Place) (frames : List Frame) (char : Char) : Option State :=
  if isBlank char then some ⟨.between, place, frames⟩
  else match place with
    | .value => State.start place frames char
    | .firstItem => if char = ']' then close char frames else State.start place frames char
    | .firstKey =>
      if char = '}' then close char frames
      else if char = '"' then some ⟨.string .plain [], place, frames⟩
      else none
    | .key => if char = '"' then some ⟨.string .plain [], place, frames⟩ else none
    | .colon => if char = ':' then some ⟨.between, .value, frames⟩ else none
    | .separator =>
      if char = ',' then
        match frames with
        | .array _ :: _ => some ⟨.between, .value, frames⟩
        | .object _ _ :: _ => some ⟨.between, .key, frames⟩
        | [] => none
      else close char frames
    | .finished _ => none

/-- The state after a symbol within a string. -/
def State.inString (phase : StringPhase) (pieces : List Piece) (place : Place)
    (frames : List Frame) (symbol : Symbol) : Option State :=
  match phase, symbol with
  | .plain, .char '"' => completeString (readContents pieces.reverse) place frames
  | .plain, .char '\\' => some ⟨.string .escape pieces, place, frames⟩
  | .plain, .char char =>
    if char.toNat < 0x20 then none else some ⟨.string .plain (.char char :: pieces), place, frames⟩
  | .plain, .stray _ => some ⟨.string .plain (.stray :: pieces), place, frames⟩
  | .escape, .char 'u' => some ⟨.string (.code 4 0) pieces, place, frames⟩
  | .escape, .char char =>
    (shortEscape? char).map fun value => ⟨.string .plain (.char value :: pieces), place, frames⟩
  | .code missing value, .char char => do
    let digit ← hexValue? char
    let value := value * 16 + digit
    if missing ≤ 1 then return ⟨.string .plain (.unit value :: pieces), place, frames⟩
    else return ⟨.string (.code (missing - 1) value) pieces, place, frames⟩
  | _, .stray _ => none

/-- The state after one more symbol; none if the symbol may not stand here. -/
def State.step (state : State) (symbol : Symbol) : Option State :=
  match state.mode, symbol with
  | .between, .char char => State.between state.place state.frames char
  | .between, .stray _ => none
  | .word [] _, _ => none
  | .word (next :: missing) value, .char char =>
    if char ≠ next then none
    else if missing.isEmpty then complete value state.frames
    else some { state with mode := .word missing value }
  | .word _ _, .stray _ => none
  | .number phase soFar, .char char =>
    match phase.next? soFar char with
    | some (phase, soFar) => some { state with mode := .number phase soFar }
    | none =>
      if phase.isComplete then do
        let next ← complete (.number soFar.finish) state.frames
        State.between next.place next.frames char
      else none
  | .number _ _, .stray _ => none
  | .string phase pieces, symbol => inString phase pieces state.place state.frames symbol

/-- The state after some symbols. -/
def State.run (state : State) : List Symbol → Option State
  | [] => some state
  | symbol :: rest =>
    match state.step symbol with
    | none => none
    | some next => next.run rest

/-- The value that has been read when the text ends here. -/
def State.finish (state : State) : Option Json :=
  match state.mode, state.place with
  | .between, .finished value => some value
  | .number phase soFar, _ =>
    if phase.isComplete && state.frames.isEmpty then some (.number soFar.finish) else none
  | _, _ => none

/-- Reads a JSON text. -/
def parse? (symbols : List Symbol) : Option Json :=
  (State.initial.run symbols).bind State.finish

/-- Reading one text after another is reading their concatenation. -/
theorem State.run_append (state : State) (first second : List Symbol) :
    state.run (first ++ second) = (state.run first).bind (·.run second) := by
  induction first generalizing state with
  | nil => rfl
  | cons symbol rest ih =>
    simp only [List.cons_append, State.run]
    cases state.step symbol with
    | none => rfl
    | some next => exact ih next

end WitGraph.Json
