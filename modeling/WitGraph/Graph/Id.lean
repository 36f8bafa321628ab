/-
**Arenas and ids.**

The packages, worlds, interfaces and types of a graph stand in four arenas and refer to each other
by their positions there. An `Id` knows its arena, so ids of different arenas never mix; an `Item`
is an id of any arena. `Item.number` numbers all items without gaps between the arenas, which lets
sets of items be sets of numbers (`Item.number_injective`).
-/

namespace WitGraph

/-- The four kinds of items that refer to each other by position. -/
inductive Arena where
  | package
  | world
  | interface
  | type
deriving DecidableEq, Repr

/-- The word for an item of the arena. -/
def Arena.noun : Arena → String
  | .package => "package"
  | .world => "world"
  | .interface => "interface"
  | .type => "type"

/-- The position of an item in its arena. -/
structure Id (arena : Arena) where
  index : Nat
deriving DecidableEq, Repr

abbrev PackageId := Id .package
abbrev WorldId := Id .world
abbrev InterfaceId := Id .interface
abbrev TypeId := Id .type

/-- An item of any arena. -/
structure Item where
  arena : Arena
  index : Nat
deriving DecidableEq, Repr

/-- The id as an item. -/
def Id.item {arena : Arena} (id : Id arena) : Item := ⟨arena, id.index⟩

/-- The item as an id of its arena. -/
def Item.id (item : Item) : Id item.arena := ⟨item.index⟩

/-- Distinct ids of an arena are distinct items. -/
theorem Id.item_injective {arena : Arena} {first second : Id arena}
    (equal : first.item = second.item) : first = second := by
  cases first; cases second; simp_all [Id.item]

/-- The place of an arena among the four. -/
def Arena.rank : Arena → Nat
  | .package => 0
  | .world => 1
  | .interface => 2
  | .type => 3

/-- A number for every item of every arena. -/
def Item.number (item : Item) : Nat := 4 * item.index + item.arena.rank

/-- The four ranks are below four. -/
theorem Arena.rank_lt (arena : Arena) : arena.rank < 4 := by
  cases arena <;> decide

/-- Distinct arenas have distinct ranks. -/
theorem Arena.rank_injective {first second : Arena} (equal : first.rank = second.rank) :
    first = second := by
  cases first <;> cases second <;> first | rfl | cases equal

/-- Distinct items have distinct numbers. -/
theorem Item.number_injective {first second : Item} (equal : first.number = second.number) :
    first = second := by
  have firstBound := first.arena.rank_lt
  have secondBound := second.arena.rank_lt
  unfold Item.number at equal
  have sameArena : first.arena = second.arena := Arena.rank_injective (by omega)
  have sameIndex : first.index = second.index := by omega
  cases first; cases second; simp_all

/-- A way to give every id another id of the same arena. -/
abbrev Renaming := {arena : Arena} → Id arena → Id arena

end WitGraph
