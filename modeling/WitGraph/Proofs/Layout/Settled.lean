/-
**Extents that do not depend on the order of the types.**

The places of the types decide where the search for what to lay out first starts, and so where it cuts a
circle: a type on the circle is laid out while the entry of the next one is still that of nothing. This
matters to a type only if something that its values contain leads back to it. `IsSettled` says that this
is so neither for the type nor for what its values contain. Grounded types are settled, and so are types
that only hang on a circle.

* `calculate_of_embedsApart`: the equation that the entry of such a type solves in every layout;
* `extentOfId_rearranged`: the solutions are equal, by induction on the order of layout;
* `cutsOff_of_reaches`: every other reference back is cut in some order;
* `layout_rearranged`: both for a document and all orders of its types.

Not all types are settled, and the order of the types does matter (`exists_order_dependent`).

With natural numbers there is a layout for every order. In words there may be none for some orders, and
what is said then holds for the others.
-/

import Mathlib.Data.Fin.Rev
import WitGraph.Proofs.Document.Rearranging
import WitGraph.Proofs.Layout.Aligned

namespace WitGraph

/-! ### Settled types -/

namespace Graph

variable {graph other : Graph} {id part whole : TypeId} {kind : TypeKind} {via : Renaming}

/-- The definitions whose values are stored within the values of a definition. -/
def embeddedIds (graph : Graph) (id : TypeId) : List TypeId :=
  match graph.kind? id with
  | none => []
  | some kind => kind.parts.filterMap TypeRef.id?

/-- What the values of the definition consist of does not lead back to it, the definition itself apart. -/
def EmbedsApart (graph : Graph) (id : TypeId) : Prop :=
  ∀ part ∈ graph.embeddedIds id, part ≠ id → ¬ Search.Reaches graph.directIds part id

/-- The same holds of the definition and of everything that its values contain. -/
def IsSettled (graph : Graph) (id : TypeId) : Prop :=
  ∀ whole, Search.Reaches graph.embeddedIds id whole → graph.EmbedsApart whole

theorem mem_embeddedIds_iff (found : graph.kind? id = some kind) :
    part ∈ graph.embeddedIds id ↔ .defined part ∈ kind.parts := by
  rw [embeddedIds, found]
  exact TypeRef.mem_filterMap_id?

theorem mem_directIds_of_embeddedIds (member : part ∈ graph.embeddedIds id) :
    part ∈ graph.directIds id := by
  cases found : graph.kind? id with
  | none =>
    rw [embeddedIds, found] at member
    cases member
  | some kind =>
    exact mem_directIds_of_mentions found
      (kind.parts_subset_mentions ((mem_embeddedIds_iff found).mp member))

/-- What the values of a settled type contain is settled. -/
theorem IsSettled.of_mem (settled : graph.IsSettled id) (member : part ∈ graph.embeddedIds id) :
    graph.IsSettled part :=
  fun whole path => settled whole (.head member path)

theorem IsGrounded.isSettled (grounded : graph.IsGrounded id) : graph.IsSettled id := by
  intro whole path part member _ back
  have reached : Search.Reaches graph.directIds id whole :=
    Relation.ReflTransGen.mono (fun _ _ => mem_directIds_of_embeddedIds) _ _ path
  exact grounded whole reached (.head' (mem_directIds_of_embeddedIds member) back)

/-! ### The same types at other places -/

theorem Rearranges.directIds (rearranges : graph.Rearranges via other) (id : TypeId) :
    other.directIds (via id) = (graph.directIds id).map via := by
  rw [Graph.directIds, Graph.directIds, rearranges.kinds]
  cases graph.kind? id with
  | none => rfl
  | some kind => exact kind.directIds_rename

theorem Rearranges.mem_directIds (rearranges : graph.Rearranges via other)
    (member : part ∈ graph.directIds whole) : via part ∈ other.directIds (via whole) := by
  rw [rearranges.directIds]
  exact List.mem_map_of_mem member

theorem Rearranges.embeddedIds (rearranges : graph.Rearranges via other) (id : TypeId) :
    other.embeddedIds (via id) = (graph.embeddedIds id).map via := by
  rw [Graph.embeddedIds, Graph.embeddedIds, rearranges.kinds]
  cases graph.kind? id with
  | none => rfl
  | some kind =>
    show (kind.rename via).parts.filterMap TypeRef.id? = _
    rw [kind.parts_rename, TypeRef.filterMap_id?_rename]

/-- A type reaches another one exactly if it does so at the other places. -/
theorem Rearranges.reaches_iff (rearranges : graph.Rearranges via other) :
    Search.Reaches other.directIds (via part) (via whole) ↔ Search.Reaches graph.directIds part whole := by
  have onto (last : TypeId) (path : Search.Reaches other.directIds (via part) last) :
      ∃ before, via before = last ∧ Search.Reaches graph.directIds part before := by
    induction path with
    | refl => exact ⟨part, rfl, .refl⟩
    | tail _ step ih =>
      obtain ⟨before, rfl, path⟩ := ih
      rw [rearranges.directIds] at step
      obtain ⟨follower, follows, rfl⟩ := List.mem_map.mp step
      exact ⟨follower, rfl, path.tail follows⟩
  constructor
  · intro path
    obtain ⟨before, same, path⟩ := onto _ path
    exact rearranges.apart before whole same ▸ path
  · exact Relation.ReflTransGen.lift (fun id => via id) (fun _ _ => rearranges.mem_directIds) part whole

theorem Rearranges.embedsApart (rearranges : graph.Rearranges via other)
    (apart : graph.EmbedsApart id) : other.EmbedsApart (via id) := by
  intro part member differ back
  rw [rearranges.embeddedIds] at member
  obtain ⟨before, isPart, rfl⟩ := List.mem_map.mp member
  exact apart before isPart (fun same => differ (same ▸ rfl)) (rearranges.reaches_iff.mp back)

theorem Rearranges.known (rearranges : graph.Rearranges via other)
    (known : ∀ id, graph.kind? id ≠ some .unknown) (id : TypeId) : other.kind? id ≠ some .unknown := by
  obtain ⟨before, rfl⟩ := rearranges.onto id
  rw [rearranges.kinds]
  intro isUnknown
  obtain ⟨kind, found, unknown⟩ := Option.map_eq_some_iff.mp isUnknown
  exact known before (found.trans (congrArg some (Kind.rename_eq_unknown_iff.mp unknown)))

end Graph

/-! ### Layouts -/

namespace LayoutTable

variable {graph other : Graph} {arithmetic : Arithmetic} {table otherTable : LayoutTable} {id : TypeId}
  {kind : TypeKind} {via : Renaming}

theorem extentOfId_withExtent_empty : (table.withExtent id .empty).extentOfId id = .empty := by
  by_cases inside : id.index < table.extents.size
  · exact extentOfId_withExtent_self inside
  · simp [extentOfId, withExtent, inside]

/-- **The equation of a settled type.** Its entry is what its kind gives on the finished table, with
nothing in the place of the type itself. -/
theorem calculate_of_embedsApart (filled : ofGraph arithmetic graph = .ok table)
    (found : graph.kind? id = some kind) (apart : graph.EmbedsApart id) :
    (table.withExtent id .empty).calculate kind = .ok (table.extentOfId id) := by
  obtain ⟨before, after, earlier, turn⟩ := exists_turn filled (Graph.holds_of_kind? found)
  rw [← turn.computed kind found]
  have arithmetics := (shape_foldlM filled).1.trans (shape_foldlM turn.run).1.symm
  refine calculate_congr arithmetics fun part member => ?_
  by_cases self : part = id
  · rw [self, extentOfId_withExtent_empty, turn.pending id turn.once]
  · have isPart := (Graph.mem_embeddedIds_iff found).mpr member
    rw [extentOfId_withExtent_of_ne self]
    exact turn.done part (Graph.mem_of_split_typeOrder turn.split
      (Graph.mem_directIds_of_embeddedIds isPart) (apart part isPart self))

/-- **Settled types have the same extents wherever the types of the graph stand.** -/
theorem extentOfId_rearranged (closed : graph.IsClosed) (rearranges : graph.Rearranges via other)
    (filled : ofGraph arithmetic graph = .ok table)
    (otherFilled : ofGraph arithmetic other = .ok otherTable) (held : graph.Holds id.item)
    (settled : graph.IsSettled id) : otherTable.extentOfId (via id) = table.extentOfId id := by
  have arithmetics := (shape_foldlM otherFilled).1.trans (shape_foldlM filled).1.symm
  induction place : graph.typeOrder.idxOf id using Nat.strongRecOn generalizing id with
  | _ place ih =>
    obtain ⟨kind, found⟩ := Graph.exists_kind? held
    have foundThere : other.kind? (via id) = some (kind.rename via) := by
      rw [rearranges.kinds, found, Option.map_some]
    have apart := settled id .refl
    have equation := calculate_of_embedsApart filled found apart
    have equationThere := calculate_of_embedsApart otherFilled foundThere (rearranges.embedsApart apart)
    have same : (otherTable.withExtent (via id) .empty).calculate (kind.rename via)
        = (table.withExtent id .empty).calculate kind := by
      refine calculate_rename arithmetics fun type member => ?_
      cases type with
      | primitive _ => rfl
      | defined part =>
        show (otherTable.withExtent (via id) .empty).extentOfId (via part) = _
        by_cases self : part = id
        · rw [self, extentOfId_withExtent_empty]
          exact extentOfId_withExtent_empty.symm
        · have isPart := (Graph.mem_embeddedIds_iff found).mpr member
          have direct := Graph.mem_directIds_of_embeddedIds isPart
          have earlier := Graph.idxOf_typeOrder_lt direct (apart part isPart self)
          rw [extentOfId_withExtent_of_ne fun same => self (rearranges.apart part id same),
            ih _ (place ▸ earlier) (closed.holds_directId direct) (settled.of_mem isPart) rfl]
          exact (extentOfId_withExtent_of_ne self).symm
    rw [equation, equationThere] at same
    exact Except.ok.inj same

end LayoutTable

/-! ### The order of the types of a document -/

namespace Document

variable {document : Document} {graph : Graph} {whole part : TypeId}

/-- Any type can be put into the first place. -/
theorem exists_newPosition_zero (inside : part.index < document.types.length) :
    ∃ order : Equiv.Perm (Fin document.types.length), newPosition order part.index = 0 := by
  have first : 0 < document.types.length := Nat.lt_of_le_of_lt (Nat.zero_le _) inside
  refine ⟨Equiv.swap ⟨0, first⟩ ⟨part.index, inside⟩, ?_⟩
  rw [newPosition, dif_pos inside, Equiv.swap_apply_right]

/-- In some order of the types, the definition is laid out with nothing in the place of the other one. -/
def CutsOff (document : Document) (whole part : TypeId) : Prop :=
  ∃ order other table before after earlier, (document.rearranged order).link = .ok other
    ∧ LayoutTable.ofGraph .exact other = .ok table
    ∧ LayoutTable.IsTurn other .exact table ⟨newPosition order whole.index⟩ before after earlier
    ∧ earlier.extentOfId ⟨newPosition order part.index⟩ = .empty

/-- **A part that leads back is cut off in some order**, namely in one that puts it first. -/
theorem cutsOff_of_reaches (linked : document.Linked graph) (known : ∀ id, graph.kind? id ≠ some .unknown)
    (member : part ∈ graph.directIds whole) (differ : part ≠ whole)
    (back : Search.Reaches graph.directIds part whole) : document.CutsOff whole part := by
  have inside : part.index < document.types.length :=
    Nat.lt_of_lt_of_eq (linked.isClosed.holds_directId member) (linked.size_eq .type).symm
  obtain ⟨order, isFirst⟩ := exists_newPosition_zero inside
  obtain ⟨other, isOther, rearranges⟩ := exists_link_rearranged order linked
  have follows := rearranges.mem_directIds member
  obtain ⟨table, filled, -⟩ := LayoutTable.exists_ofGraph (rearranges.known known)
  have heldWhole := Graph.holds_of_mem_directIds follows
  obtain ⟨before, after, earlier, turn⟩ := LayoutTable.exists_turn filled heldWhole
  refine ⟨order, other, table, before, after, earlier, isOther, filled, turn, turn.pending _ ?_⟩
  -- what stands first is laid out after everything that it reaches
  intro isBefore
  have first : (⟨newPosition order part.index⟩ : TypeId).index = 0 := isFirst
  have heldPart : other.Holds (⟨newPosition order part.index⟩ : TypeId).item := by
    show newPosition order part.index < other.size .type
    rw [isFirst]
    exact Nat.lt_of_le_of_lt (Nat.zero_le _) heldWhole
  have later := Graph.idxOf_typeOrder_lt_first first heldPart (rearranges.reaches_iff.mpr back)
    fun same => differ (rearranges.apart part whole same.symm)
  have once := other.postordered_typeOrder.1
  rw [turn.split] at once later
  exact absurd (Search.idxOf_lt_of_mem once isBefore) (Nat.lt_asymm later)

end Document

namespace Graph

/-- **The extents of settled types do not depend on the order of the types of a document**, whatever the
arithmetic is. A type that does not embed its parts apart is laid out without one of them in some order. -/
theorem layout_rearranged {symbols : List Text.Symbol} {document : Document} {graph : Graph}
    (isRead : Document.ofSymbols? symbols = some document) (isLinked : document.link = .ok graph) :
    (∀ order : Equiv.Perm (Fin document.types.length),
      ∃ other, (document.rearranged order).link = .ok other
        ∧ (∃ exact, LayoutTable.ofGraph .exact graph = .ok exact)
        ∧ (∃ exact, LayoutTable.ofGraph .exact other = .ok exact)
        ∧ ∀ arithmetic table otherTable, LayoutTable.ofGraph arithmetic graph = .ok table →
          LayoutTable.ofGraph arithmetic other = .ok otherTable →
          ∀ index : Fin document.types.length, graph.IsSettled ⟨index⟩ →
            otherTable.extentOfId ⟨order index⟩ = table.extentOfId ⟨index⟩)
    ∧ ∀ whole, ¬ graph.EmbedsApart whole →
        ∃ part ∈ graph.embeddedIds whole, part ≠ whole ∧ document.CutsOff whole part := by
  have linked := Document.link_eq_ok_iff.mp isLinked
  obtain ⟨json, -, isDocument⟩ := Option.bind_eq_some_iff.mp isRead
  have known := linked.known isDocument
  constructor
  · intro order
    obtain ⟨other, isOther, rearranges⟩ := Document.exists_link_rearranged order linked
    obtain ⟨exact, isExact, -⟩ := LayoutTable.exists_ofGraph known
    obtain ⟨otherExact, isOtherExact, -⟩ := LayoutTable.exists_ofGraph (rearranges.known known)
    refine ⟨other, isOther, ⟨exact, isExact⟩, ⟨otherExact, isOtherExact⟩,
      fun arithmetic table otherTable filled otherFilled index settled => ?_⟩
    have held : graph.Holds (⟨index⟩ : TypeId).item :=
      Nat.lt_of_lt_of_eq index.isLt (linked.size_eq .type)
    rw [← Document.newPosition_coe]
    exact LayoutTable.extentOfId_rearranged linked.isClosed rearranges filled otherFilled held settled
  · intro whole notApart
    unfold EmbedsApart at notApart
    push Not at notApart
    obtain ⟨part, member, differ, back⟩ := notApart
    exact ⟨part, member, differ, Document.cutsOff_of_reaches linked known
      (mem_directIds_of_embeddedIds member) differ back⟩

namespace Hanging

/-- The text of a document with a record and a list that contain each other, and a record with a list of
them. -/
def text : String := "\n".intercalate [
  "\x7b\"types\":[\x7b\"kind\":\x7b\"record\":\x7b\"fields\":[",
  "\x7b\"name\":\"x\",\"type\":1\x7d,\x7b\"name\":\"y\",\"type\":\"u8\"\x7d]\x7d\x7d\x7d,",
  "\x7b\"kind\":\x7b\"list\":2\x7d\x7d,\x7b\"kind\":\x7b\"record\":\x7b\"fields\":[",
  "\x7b\"name\":\"x\",\"type\":3\x7d,\x7b\"name\":\"y\",\"type\":\"u8\"\x7d]\x7d\x7d\x7d,",
  "\x7b\"kind\":\x7b\"list\":2\x7d\x7d]\x7d"]

/-- The records of the document. -/
def records : Document where
  types := [
    { kind := .record [⟨"x", .index 1, {}⟩, ⟨"y", .name "u8", {}⟩] },
    { kind := .list (.index 2) },
    { kind := .record [⟨"x", .index 3, {}⟩, ⟨"y", .name "u8", {}⟩] },
    { kind := .list (.index 2) }]

/-- The graph that the document describes. -/
def graph : Graph where
  types := #[
    { kind := .record [⟨"x", .defined ⟨1⟩, {}⟩, ⟨"y", .primitive .u8, {}⟩] },
    { kind := .list (.defined ⟨2⟩) },
    { kind := .record [⟨"x", .defined ⟨3⟩, {}⟩, ⟨"y", .primitive .u8, {}⟩] },
    { kind := .list (.defined ⟨2⟩) }]

theorem read : Document.ofSymbols? (Text.symbols text) = some records := by
  rw [text, Text.symbols, String.toList_intercalate]
  decide +kernel

theorem linked : records.link = .ok graph := by decide +kernel

/-- The circle does not lead back to the first record. -/
theorem isSettled_record : graph.IsSettled ⟨0⟩ := by
  intro whole path part member _ back
  have inside : whole ∈ [⟨0⟩, ⟨1⟩] := Search.mem_of_reaches (by decide) (List.mem_cons_self ..) path
  rcases List.mem_pair.mp inside with rfl | rfl
  · cases List.mem_singleton.mp member
    have onCircle : (⟨0⟩ : TypeId) ∈ [⟨1⟩, ⟨2⟩, ⟨3⟩] :=
      Search.mem_of_reaches (by decide) (List.mem_cons_self ..) back
    exact absurd onCircle (by decide)
  · cases member

/-- The list in the second record leads back to it. -/
theorem not_embedsApart_record : ¬ graph.EmbedsApart ⟨2⟩ := by
  intro apart
  have back : (⟨2⟩ : TypeId) ∈ graph.directIds ⟨3⟩ := List.mem_singleton_self _
  exact apart ⟨3⟩ (List.mem_singleton_self _) (by decide) (.single back)

end Hanging

/-- The record with a list of the others keeps its extent when the types are reversed, and of these others
the record is laid out without its list in some order. -/
theorem layout_rearranged_hanging :
    Document.ofSymbols? (Text.symbols Hanging.text) = some Hanging.records
      ∧ Hanging.records.link = .ok Hanging.graph
      ∧ (∃ other table otherTable, (Hanging.records.rearranged Fin.revPerm).link = .ok other
        ∧ LayoutTable.ofGraph .exact Hanging.graph = .ok table
        ∧ LayoutTable.ofGraph .exact other = .ok otherTable
        ∧ otherTable.extentOfId ⟨3⟩ = table.extentOfId ⟨0⟩)
      ∧ ∃ part ∈ Hanging.graph.embeddedIds ⟨2⟩, part ≠ ⟨2⟩ ∧ Hanging.records.CutsOff ⟨2⟩ part := by
  obtain ⟨sameExtents, cuts⟩ := layout_rearranged Hanging.read Hanging.linked
  obtain ⟨other, isOther, ⟨table, isTable⟩, ⟨otherTable, isOtherTable⟩, same⟩ :=
    sameExtents Fin.revPerm
  have first : 0 < Hanging.records.types.length := by decide
  have kept := same .exact table otherTable isTable isOtherTable ⟨0, first⟩ Hanging.isSettled_record
  exact ⟨Hanging.read, Hanging.linked, ⟨other, table, otherTable, isOther, isTable, isOtherTable, kept⟩,
    cuts ⟨2⟩ Hanging.not_embedsApart_record⟩

namespace Facing

/-- The text of a document with two circles of a record and a list, each the other one backwards. -/
def text : String := "\n".intercalate [
  "\x7b\"types\":[\x7b\"kind\":\x7b\"record\":\x7b\"fields\":[",
  "\x7b\"name\":\"x\",\"type\":1\x7d,\x7b\"name\":\"y\",\"type\":\"u8\"\x7d]\x7d\x7d\x7d,",
  "\x7b\"kind\":\x7b\"list\":0\x7d\x7d,\x7b\"kind\":\x7b\"list\":3\x7d\x7d,",
  "\x7b\"kind\":\x7b\"record\":\x7b\"fields\":[",
  "\x7b\"name\":\"x\",\"type\":2\x7d,\x7b\"name\":\"y\",\"type\":\"u8\"\x7d]\x7d\x7d\x7d]\x7d"]

/-- The records of the document. -/
def records : Document where
  types := [
    { kind := .record [⟨"x", .index 1, {}⟩, ⟨"y", .name "u8", {}⟩] },
    { kind := .list (.index 0) },
    { kind := .list (.index 3) },
    { kind := .record [⟨"x", .index 2, {}⟩, ⟨"y", .name "u8", {}⟩] }]

/-- The graph that the document describes. -/
def graph : Graph where
  types := #[
    { kind := .record [⟨"x", .defined ⟨1⟩, {}⟩, ⟨"y", .primitive .u8, {}⟩] },
    { kind := .list (.defined ⟨0⟩) },
    { kind := .list (.defined ⟨3⟩) },
    { kind := .record [⟨"x", .defined ⟨2⟩, {}⟩, ⟨"y", .primitive .u8, {}⟩] }]

/-- The layout of the graph. -/
def table : LayoutTable := ⟨.word, #[⟨12, 4⟩, ⟨8, 4⟩, ⟨8, 4⟩, ⟨1, 1⟩]⟩

theorem read : Document.ofSymbols? (Text.symbols text) = some records := by
  rw [text, Text.symbols, String.toList_intercalate]
  decide +kernel

theorem linked : records.link = .ok graph := by decide +kernel

theorem filled : graph.layout = .ok table := rfl

end Facing

/-- **Reversing the types of a document can change their extents.** Here the reversed document is the
document itself, and so the last type takes the place of the first one, but they differ in size. -/
theorem exists_order_dependent :
    Document.ofSymbols? (Text.symbols Facing.text) = some Facing.records
      ∧ Facing.records.link = .ok Facing.graph
      ∧ Facing.records.rearranged Fin.revPerm = Facing.records
      ∧ ∃ (order : Equiv.Perm (Fin Facing.records.types.length))
          (index : Fin Facing.records.types.length) (other : Graph) (table otherTable : LayoutTable),
        (Facing.records.rearranged order).link = .ok other ∧ Facing.graph.layout = .ok table
          ∧ other.layout = .ok otherTable
          ∧ otherTable.extentOfId ⟨order index⟩ ≠ table.extentOfId ⟨index⟩ := by
  have same : Facing.records.rearranged Fin.revPerm = Facing.records := by decide +kernel
  have differ : Facing.table.extentOfId ⟨3⟩ ≠ Facing.table.extentOfId ⟨0⟩ := by decide
  exact ⟨Facing.read, Facing.linked, same, Fin.revPerm, ⟨0, by decide⟩, Facing.graph, Facing.table,
    Facing.table, same ▸ Facing.linked, Facing.filled, Facing.filled, differ⟩

end Graph

end WitGraph
