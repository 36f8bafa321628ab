/-
**Extents of values in memory.**

An `Extent` is the size and alignment of a value. Records place their fields one after another,
each at the next multiple of its alignment; variants place a tag first and then the payload of any
case at the next multiple of all their alignments. Both round their size up to their alignment.

The tag of a variant is the narrowest unsigned integer that counts its cases, and flags take one
byte, two bytes, or as many words of 32 bits as they need.

Sums are formed in some `Arithmetic`, and so whatever takes a sum fails if the arithmetic does.
-/

import WitGraph.Graph.TypeRef
import WitGraph.Layout.Arithmetic

namespace WitGraph

/-- Unsigned integer types. -/
inductive UnsignedInt where
  | u8
  | u16
  | u32
  | u64
deriving DecidableEq, Repr

/-- How many bytes an unsigned integer takes. -/
def UnsignedInt.bytes : UnsignedInt → Nat
  | .u8 => 1
  | .u16 => 2
  | .u32 => 4
  | .u64 => 8

/-- The integer type that tells a number of cases apart, for at most `2 ^ 32` cases. A variant with more
cases is a programmer's mistake, at which a program stops; here it has a tag of 32 bits as well. -/
def UnsignedInt.ofCases (cases : Nat) : UnsignedInt :=
  if cases ≤ 256 then .u8 else if cases ≤ 65536 then .u16 else .u32

/-- The representation of flags. -/
inductive FlagsShape where
  | byte
  | half
  /-- As many words of 32 bits. -/
  | words (count : Nat)
deriving DecidableEq, Repr

namespace FlagsShape

/-- How many words of 32 bits a number of flags fills. The flags of a list leave room for rounding up
their number, so that natural numbers are enough. -/
def wordCount (flags : Nat) : Nat := roundUp flags 32 / 32

/-- The representation of a number of flags. -/
def ofCount (arithmetic : Arithmetic) (flags : Nat) : Except AbiFault FlagsShape :=
  if flags ≤ 8 then .ok .byte
  else if flags ≤ 16 then .ok .half
  else return .words ((← arithmetic.alignUp flags 32) / 32)

end FlagsShape

/-- A size and an alignment. -/
structure Extent where
  size : Nat
  align : Nat
deriving DecidableEq, Repr

namespace Extent

/-- The extent of nothing. -/
def empty : Extent := ⟨0, 1⟩

instance : Inhabited Extent := ⟨empty⟩

/-- The extent of a value that is as aligned as it is large. -/
def natural (bytes : Nat) : Extent := ⟨bytes, bytes⟩

/-- How many bytes a pointer takes. -/
def pointerBytes : Nat := 4

/-- The extent of a pointer. -/
def pointer : Extent := natural pointerBytes

/-- The extent of a string or list: a pointer and a length. -/
def slice : Extent := ⟨2 * pointerBytes, pointerBytes⟩

/-- The extent of a handle, which is an index of 32 bits. -/
def handle : Extent := natural 4

/-- The extent of an unsigned integer. -/
def ofInt (int : UnsignedInt) : Extent := natural int.bytes

/-- The extent of a primitive type. -/
def ofPrimitive : Primitive → Extent
  | .bool | .u8 | .s8 => natural 1
  | .u16 | .s16 => natural 2
  | .u32 | .s32 | .f32 | .char => natural 4
  | .u64 | .s64 | .f64 => natural 8
  | .string => slice
  | .errorContext => handle

/-- The extent of flags in their representation. -/
def ofFlagsShape : FlagsShape → Extent
  | .byte => natural 1
  | .half => natural 2
  | .words count => ⟨count * 4, 4⟩

/-- The extent of a number of flags. -/
def ofFlags (arithmetic : Arithmetic) (flags : Nat) : Except AbiFault Extent := do
  return ofFlagsShape (← FlagsShape.ofCount arithmetic flags)

/-! ### Records -/

/-- The end of the last field and the greatest alignment, after one more field. -/
def place (arithmetic : Arithmetic) (before field : Extent) : Except AbiFault Extent := do
  let offset ← arithmetic.alignUp before.size field.align
  return ⟨← arithmetic.add offset field.size, max before.align field.align⟩

/-- The extent with its size rounded up to its alignment. -/
def padded (arithmetic : Arithmetic) (extent : Extent) : Except AbiFault Extent := do
  return { extent with size := ← arithmetic.alignUp extent.size extent.align }

/-- The extent of a record. -/
def record (arithmetic : Arithmetic) (fields : List Extent) : Except AbiFault Extent := do
  (← fields.foldlM (place arithmetic) empty).padded arithmetic

/-- The offsets of fields, the first of which may start at `start`. -/
def offsetsFrom (arithmetic : Arithmetic) (start : Nat) :
    List Extent → Except AbiFault (List Nat)
  | [] => .ok []
  | field :: rest => do
    let offset ← arithmetic.alignUp start field.align
    let fieldEnd ← arithmetic.add offset field.size
    return offset :: (← offsetsFrom arithmetic fieldEnd rest)

/-- The offsets of the fields of a record. -/
def offsets (arithmetic : Arithmetic) (fields : List Extent) : Except AbiFault (List Nat) :=
  offsetsFrom arithmetic 0 fields

/-! ### Variants -/

/-- The greatest size and the greatest alignment of some payloads, at least those of nothing. -/
def widest (payloads : List Extent) : Extent :=
  payloads.foldl (fun widest payload =>
    ⟨max widest.size payload.size, max widest.align payload.align⟩) empty

/-- The offset of the payloads behind a tag. -/
def payloadOffset (arithmetic : Arithmetic) (tag : UnsignedInt) (payloads : List Extent) :
    Except AbiFault Nat :=
  arithmetic.alignUp tag.bytes (widest payloads).align

/-- The extent of a variant. -/
def variant (arithmetic : Arithmetic) (tag : UnsignedInt) (payloads : List Extent) :
    Except AbiFault Extent := do
  let offset ← payloadOffset arithmetic tag payloads
  let size ← arithmetic.add offset (widest payloads).size
  padded arithmetic ⟨size, max tag.bytes (widest payloads).align⟩

end Extent

end WitGraph
