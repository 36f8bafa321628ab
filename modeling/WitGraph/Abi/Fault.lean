/-
**Types without a representation.**

A kind that is not known yet has neither a layout nor a flat form, a type whose layout takes a sum
beyond 64 bits has no layout, and a type that contains itself has no flat form. Graphs read from
documents have no unknown kinds, but they can have types that are too large or contain themselves.

These faults are not failures that a command reports about its input: a program that meets one stops
where it is, at a failed assertion or an overflow, or with its stack used up by a type that contains
itself. Here the command ends with the fault instead (`Failure.exitCode`), and with a message for the
last one as well, which a program without a stack left cannot give.
-/

namespace WitGraph

/-- Why a type has no representation. -/
inductive AbiFault where
  /-- An unknown kind has no layout. -/
  | noLayout
  /-- An unknown kind cannot be flattened. -/
  | noFlatForm
  /-- A sum of sizes takes more than 64 bits. -/
  | overflow
  /-- A type contains itself. A program does not find this out, but runs out of stack. -/
  | endless
deriving DecidableEq, Repr

/-- The wording of a fault. -/
def AbiFault.message : AbiFault → String
  | .noLayout => "unknown type has no layout"
  | .noFlatForm => "unknown type cannot be flattened"
  | .overflow => "attempt to add with overflow"
  | .endless => "a type that contains itself cannot be flattened"

end WitGraph
