/-
**Bytes as text symbols.**

Documents arrive as bytes that may not be valid UTF-8. `decode` turns any bytes into symbols: each
well-formed UTF-8 sequence becomes its character, and every byte outside such a sequence becomes a
stray byte. A machine reads one byte at a time; `Pending` is what it remembers in the middle of a
sequence.
-/

namespace WitGraph.Text

/-- A character, or a byte that belongs to none. -/
inductive Symbol where
  | char (value : Char)
  | stray (byte : UInt8)
deriving DecidableEq, Repr

namespace Symbol

/-- The bytes of a sequence that has begun. -/
structure Pending where
  /-- The bytes so far, the latest first. -/
  bytes : List UInt8
  /-- How many more bytes the sequence needs. -/
  owed : Nat
  /-- The least value of the next byte. -/
  low : UInt8
  /-- The greatest value of the next byte. -/
  high : UInt8
  /-- The bits of the code point so far. -/
  value : Nat
deriving Repr

/-- The state between bytes: the sequence that has begun, if any, and the symbols so far, the
latest first. -/
structure Decoding where
  pending : Option Pending
  symbols : List Symbol
deriving Repr

/-- Reads a byte between sequences. The ranges are those of the well-formed sequences. -/
def begin (symbols : List Symbol) (byte : UInt8) : Decoding :=
  let opening (owed : Nat) (low high : UInt8) (lead : UInt8) : Decoding :=
    { pending := some { bytes := [byte], owed, low, high, value := (byte - lead).toNat }, symbols }
  if byte < 0x80 then { pending := none, symbols := .char (Char.ofNat byte.toNat) :: symbols }
  else if byte < 0xC2 then { pending := none, symbols := .stray byte :: symbols }
  else if byte < 0xE0 then opening 1 0x80 0xBF 0xC0
  else if byte = 0xE0 then opening 2 0xA0 0xBF 0xE0
  else if byte = 0xED then opening 2 0x80 0x9F 0xE0
  else if byte < 0xF0 then opening 2 0x80 0xBF 0xE0
  else if byte = 0xF0 then opening 3 0x90 0xBF 0xF0
  else if byte < 0xF4 then opening 3 0x80 0xBF 0xF0
  else if byte = 0xF4 then opening 3 0x80 0x8F 0xF0
  else { pending := none, symbols := .stray byte :: symbols }

/-- The symbols once the bytes of an unfinished sequence have turned out to be stray. -/
def abandon (symbols : List Symbol) : Option Pending → List Symbol
  | none => symbols
  | some pending => pending.bytes.map Symbol.stray ++ symbols

/-- Reads one byte. A byte that cannot go on with the sequence begins anew. -/
def step (state : Decoding) (byte : UInt8) : Decoding :=
  match state.pending with
  | none => begin state.symbols byte
  | some pending =>
    if pending.low ≤ byte ∧ byte ≤ pending.high then
      let value := pending.value * 64 + (byte - 0x80).toNat
      if pending.owed ≤ 1 then
        { pending := none, symbols := .char (Char.ofNat value) :: state.symbols }
      else
        { state with
          pending := some {
            bytes := byte :: pending.bytes, owed := pending.owed - 1, low := 0x80, high := 0xBF,
            value } }
    else begin (abandon state.symbols (some pending)) byte

end Symbol

/-- The symbols of some bytes. -/
def decode (bytes : List UInt8) : List Symbol :=
  let last := bytes.foldl Symbol.step { pending := none, symbols := [] }
  (Symbol.abandon last.symbols last.pending).reverse

/-- The symbols of a text. -/
def symbols (text : String) : List Symbol :=
  text.toList.map Symbol.char

end WitGraph.Text
