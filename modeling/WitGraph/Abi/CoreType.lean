/-
**Core types.**

Values are passed between components as core values, each of a `CoreType`. Where the cases of a
variant share a slot, the slot has the join of their types: the type itself if they agree, `i32` if
both take four bytes, and `i64` otherwise.
-/

import WitGraph.Layout.Extent

namespace WitGraph

/-- The types of core values. -/
inductive CoreType where
  | i32
  | i64
  | f32
  | f64
  /-- A pointer into linear memory, passed as an `i32`. -/
  | pointer
deriving DecidableEq, Repr

namespace CoreType

/-- The name of a core type. -/
def name : CoreType → String
  | .i32 => "i32"
  | .i64 => "i64"
  | .f32 => "f32"
  | .f64 => "f64"
  | .pointer => "ptr"

/-- How many bytes a core value takes. -/
def bytes : CoreType → Nat
  | .i32 | .f32 | .pointer => 4
  | .i64 | .f64 => 8

/-- The type of a slot that is shared by values of two types. -/
def join (first second : CoreType) : CoreType :=
  if first = second then first
  else if first.bytes = 4 ∧ second.bytes = 4 then .i32
  else .i64

/-- The type that an unsigned integer is passed as. -/
def ofInt : UnsignedInt → CoreType
  | .u8 | .u16 | .u32 => .i32
  | .u64 => .i64

end CoreType

end WitGraph
