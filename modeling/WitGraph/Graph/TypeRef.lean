/-
**References to types.**

A type is used either by the name of a primitive type or by the id of a definition.
-/

import WitGraph.Graph.Id

namespace WitGraph

/-- The types that need no definition. -/
inductive Primitive where
  | bool
  | u8
  | u16
  | u32
  | u64
  | s8
  | s16
  | s32
  | s64
  | f32
  | f64
  | char
  | string
  | errorContext
deriving DecidableEq, Repr

namespace Primitive

/-- The name of a primitive type. -/
def name : Primitive → String
  | .bool => "bool"
  | .u8 => "u8"
  | .u16 => "u16"
  | .u32 => "u32"
  | .u64 => "u64"
  | .s8 => "s8"
  | .s16 => "s16"
  | .s32 => "s32"
  | .s64 => "s64"
  | .f32 => "f32"
  | .f64 => "f64"
  | .char => "char"
  | .string => "string"
  | .errorContext => "error-context"

/-- The primitive type with a name. The floating-point types also have longer names. -/
def ofName? : String → Option Primitive
  | "bool" => some .bool
  | "u8" => some .u8
  | "u16" => some .u16
  | "u32" => some .u32
  | "u64" => some .u64
  | "s8" => some .s8
  | "s16" => some .s16
  | "s32" => some .s32
  | "s64" => some .s64
  | "f32" | "float32" => some .f32
  | "f64" | "float64" => some .f64
  | "char" => some .char
  | "string" => some .string
  | "error-context" => some .errorContext
  | _ => none

/-- A primitive type is found by its name. -/
theorem ofName?_name (primitive : Primitive) : ofName? primitive.name = some primitive := by
  cases primitive <;> rfl

end Primitive

/-- A use of a type. -/
inductive TypeRef where
  | primitive (type : Primitive)
  | defined (id : TypeId)
deriving DecidableEq, Repr

namespace TypeRef

/-- The definition that is used, if any. -/
def id? : TypeRef → Option TypeId
  | .primitive _ => none
  | .defined id => some id

/-- The reference with its id renamed. -/
def rename (via : Renaming) : TypeRef → TypeRef
  | .primitive type => .primitive type
  | .defined id => .defined (via id)

end TypeRef

end WitGraph
