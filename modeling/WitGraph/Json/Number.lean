/-
**What numbers denote.**

Two questions are asked about a spelled number. `Number.index?` asks whether it is the index of an
item: a natural number below 2^64 written without sign, point or exponent. `Number.isInRange` asks
whether it stays in the range of binary64 numbers when it is read as follows: the leading digits
that fit 64 bits make the significand and all further ones only count for the exponent; a positive
power of ten is multiplied in after significand and power have been rounded to 53 bits, and powers
above 308 are out of range unless the significand is zero.
-/

import WitGraph.Json.Basic

namespace WitGraph.Number

/-- Indices and significands are below this bound. -/
def wordLimit : Nat := UInt64.size

/-- Neither a point nor an exponent. -/
def isInteger (number : Number) : Bool :=
  number.fraction.isEmpty && number.exponent.isNone

/-- The index that a number denotes. -/
def index? (number : Number) : Option Nat :=
  if number.negative || !number.isInteger then none
  else
    let value := Nat.ofDigitChars 10 number.whole 0
    if value < wordLimit then some value else none

/-! ### Range -/

/-- The longest beginning of `digits` that fits a word after `start`: its value, and how many digits
are left. -/
def takeDigits (start : Nat) : List Char → Nat × Nat
  | [] => (start, 0)
  | digit :: rest =>
    let next := start * 10 + (digit.toNat - '0'.toNat)
    if next < wordLimit then takeDigits next rest else (start, rest.length + 1)

/-- The significand, and the power of ten that the digits before and after the point leave. -/
def significand (number : Number) : Nat × Int :=
  match takeDigits 0 number.whole with
  | (value, 0) =>
    let (all, left) := takeDigits value number.fraction
    (all, -((number.fraction.length - left : Nat) : Int))
  | (value, left) =>
    match takeDigits value number.fraction with
    | (all, ignored) => (all, (left : Int) - ((number.fraction.length - ignored : Nat) : Int))

/-- The power of ten that the exponent states. -/
def statedPower (number : Number) : Int :=
  match number.exponent with
  | none => 0
  | some (negative, digits) =>
    let value : Int := Nat.ofDigitChars 10 digits 0
    if negative then -value else value

/-- A natural number rounded to 53 significant bits, a tie going to the even neighbour. -/
def roundTo53 (value : Nat) : Nat :=
  let excess := value.log2 + 1 - 53
  let unit := Nat.pow 2 excess
  let quotient := value / unit
  let twice := 2 * (value % unit)
  if twice < unit ∨ (twice = unit ∧ quotient % 2 = 0) then quotient * unit
  else (quotient + 1) * unit

/-- The least value that rounds beyond the greatest binary64 number. -/
def rangeLimit : Nat := Nat.pow 2 1024 - Nat.pow 2 970

/-- Whether the number is read as a binary64 number without leaving its range. -/
def isInRange (number : Number) : Bool :=
  if number.isInteger && Nat.ofDigitChars 10 number.whole 0 < wordLimit then true
  else
    let (value, power) := number.significand
    let power := power + number.statedPower
    if value = 0 ∨ power ≤ 0 then true
    else if power > 308 then false
    else roundTo53 value * roundTo53 (Nat.pow 10 power.toNat) < rangeLimit

end WitGraph.Number
