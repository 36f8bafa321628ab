/-
**The order of identifiers.**

Identifiers compare by namespace, package, extension and version in this order; texts compare by
character, and an absent extension or version comes before a present one. `Ident.sort` keeps equal
identifiers in the order given.
-/

import WitGraph.Ident
import WitGraph.Version.Order

namespace WitGraph.Ident

/-- Absent before present, present ones by `compare`. -/
def compareOptional {α : Type} (compare : α → α → Ordering) : Option α → Option α → Ordering
  | none, none => .eq
  | none, some _ => .lt
  | some _, none => .gt
  | some first, some second => compare first second

/-- The order of identifiers. -/
def compare (first second : Ident) : Ordering :=
  (Ord.compare first.ns second.ns).then <|
  (Ord.compare first.package second.package).then <|
  (compareOptional Ord.compare first.extension second.extension).then <|
  compareOptional Version.compare first.version second.version

instance : Ord Ident := ⟨compare⟩

/-- Sorts identifiers, keeping the order of equal ones. -/
def sort (idents : List Ident) : List Ident :=
  idents.mergeSort fun first second => (compare first second).isLE

/-- How many runs of equal neighbours a list has. -/
def countRuns : List Ident → Nat
  | [] => 0
  | [_] => 1
  | first :: second :: rest => countRuns (second :: rest) + if first = second then 0 else 1

end WitGraph.Ident
