/-
**Pruned graphs are read back, but for keys that clash.**

Pruning gives interfaces new ids, and the key of an interface is written as a text that is made of the
id. A name may be spelled like that text, if not before pruning then after it. So what is read of the
text of a pruned graph is the pruned graph with the keys of its worlds read again
(`Graph.respelled`):

* `IsCopyOf.isWritable`: a copy of a graph that has been read can be written;
* `IsCopyOf.isLegible`: no keys clash if no name is spelled like the key of an interface;
* `ofText_text_pruneTo` puts this together, and `exists_import_lost` is a graph in which a function is
  imported before its text has been read and no longer afterwards.
-/

import Mathlib.Data.List.Perm.Subperm
import WitGraph.Proofs.Pruning.SelfContained

namespace WitGraph

variable {via : Renaming}

/-! ### Renaming what can be written -/

theorem Kind.isWritable_rename {kind : TypeKind} (writable : kind.IsWritable) :
    (kind.rename via).IsWritable := by
  cases kind <;> exact writable

theorem Results.isWritable_rename {results : Results} (writable : results.IsWritable) :
    (results.rename via).IsWritable := by
  cases results with
  | anonymous type => trivial
  | named params =>
    refine (Document.Results.ofList_cases _).resolve_left ?_
    rintro ⟨type, single, -⟩
    obtain ⟨⟨name, before⟩, rfl, same⟩ := List.map_eq_singleton_iff.mp single
    cases congrArg Param.name same
    cases writable

theorem Function.isWritable_rename {function : Function} (writable : function.IsWritable) :
    (function.rename via).IsWritable :=
  ⟨Results.isWritable_rename writable.results, writable.stability⟩

theorem WorldItem.isWritable_rename {item : WorldItem} (writable : item.IsWritable) :
    (item.rename via).IsWritable := by
  cases item with
  | interface id stability => exact writable
  | function func => exact Function.isWritable_rename writable
  | type id => trivial

/-- A copy of a writable entity is writable. -/
theorem Entity.IsCopy.isWritable {arena : Arena} {copy original : Entity arena}
    (isCopy : copy.IsCopy via original) (writable : original.IsWritable) : copy.IsWritable := by
  cases arena with
  | package =>
    have normal : Ident.IsNormal (Package.name original) := writable
    obtain ⟨-, -, same⟩ := isCopy
    rw [same]
    exact normal
  | world =>
    have isWritable : World.IsWritable original := writable
    refine ⟨fun entry member => ?_, ?_⟩
    · obtain ⟨before, inside, rfl⟩ := isCopy.exists_entry member
      exact WorldItem.isWritable_rename (isWritable.entries before inside)
    · obtain ⟨-, -, same⟩ := isCopy
      rw [same]
      exact isWritable.stability
  | interface =>
    have isWritable : Interface.IsWritable original := writable
    cases (isCopy : copy = Interface.rename via original)
    refine ⟨fun function member => ?_, isWritable.stability⟩
    obtain ⟨before, inside, rfl⟩ := List.mem_map.mp (OrderedMap.values_mapValues _ _ ▸ member)
    exact Function.isWritable_rename (isWritable.functions before inside)
  | type =>
    have isWritable : TypeDef.IsWritable original := writable
    cases (isCopy : copy = TypeDef.rename via original)
    exact ⟨Kind.isWritable_rename isWritable.kind, isWritable.stability⟩

/-! ### Keys that are told apart -/

/-- Interfaces have keys with texts of their own. -/
theorem WorldKey.interface_of_text_eq {first second : InterfaceId}
    (same : (WorldKey.interface first).text = (WorldKey.interface second).text) :
    first = second := by
  have digits (id : InterfaceId) : (WorldKey.interface id).text.toList
      = "interface-".toList ++ Nat.toDigits 10 id.index := by
    simp [text, toString, Nat.repr]
  have sameDigits := congrArg String.toList same
  rw [digits, digits, List.append_cancel_left_eq] at sameDigits
  have sameIndex := congrArg (fun digits => Nat.ofDigitChars 10 digits 0) sameDigits
  simp only [Nat.ofDigitChars_ten_toDigits] at sameIndex
  exact congrArg Id.mk sameIndex

namespace World

/-- A key that is an interface stands above this interface. -/
def IsKeyed (world : World) : Prop :=
  ∀ entry ∈ world.entries, ∀ id, entry.1.interface? = some id → entry.2.interface? = some id

/-- No name of an import or export is spelled like the key of an interface. -/
def HasPlainNames (world : World) : Prop :=
  ∀ entry ∈ world.entries, ∀ name, entry.1 = .name name → ∀ id, name ≠ (WorldKey.interface id).text

variable {world : World}

theorem keyOf_text (keyed : world.IsKeyed) (plain : world.HasPlainNames)
    {entry : WorldKey × WorldItem} (member : entry ∈ world.entries) :
    Document.keyOf entry.1.text entry.2 = entry.1 := by
  have isKeyed := keyed entry member
  have isPlain := plain entry member
  obtain ⟨key, item⟩ := entry
  cases key with
  | name name =>
    cases item with
    | interface id stability => exact if_neg (isPlain name rfl id)
    | function func => rfl
    | type id => rfl
  | interface id =>
    have same : item.interface? = some id := isKeyed id rfl
    cases item with
    | interface other stability =>
      cases same
      exact if_pos rfl
    | function func => cases same
    | type other => cases same

/-- Keys with the same text are the same. -/
theorem key_of_text_eq (plain : world.HasPlainNames) {entry other : WorldKey × WorldItem}
    (member : entry ∈ world.entries) (otherMember : other ∈ world.entries)
    (same : entry.1.text = other.1.text) : entry.1 = other.1 := by
  have isPlain := plain entry member
  have otherPlain := plain other otherMember
  obtain ⟨key, item⟩ := entry
  obtain ⟨otherKey, otherItem⟩ := other
  cases key with
  | name name =>
    cases otherKey with
    | name otherName => exact congrArg WorldKey.name same
    | interface id => exact absurd same (isPlain name rfl id)
  | interface id =>
    cases otherKey with
    | name otherName => exact absurd same.symm (otherPlain otherName rfl id)
    | interface otherId => exact congrArg WorldKey.interface (WorldKey.interface_of_text_eq same)

theorem isLegible (keyed : world.IsKeyed) (plain : world.HasPlainNames) : world.IsLegible := by
  intro side
  have inWorld {entry : WorldKey × WorldItem} (member : entry ∈ (world.side side).entries) :
      entry ∈ world.entries := by
    cases side with
    | imports => exact List.mem_append_left _ member
    | exports => exact List.mem_append_right _ member
  refine ⟨?_, fun entry member => keyOf_text keyed plain (inWorld member)⟩
  have texts : ((world.side side).entries.map Prod.fst).map WorldKey.text
      = (world.side side).entries.map fun entry => entry.1.text := List.map_map
  rw [← texts]
  refine List.Nodup.map_on ?_ (world.side side).distinct
  intro key isKey otherKey isOtherKey same
  obtain ⟨entry, member, rfl⟩ := List.mem_map.mp isKey
  obtain ⟨other, otherMember, rfl⟩ := List.mem_map.mp isOtherKey
  exact key_of_text_eq plain (inWorld member) (inWorld otherMember) same

end World

namespace Graph

/-- No name of an import or export is spelled like the key of an interface. -/
def HasPlainNames (graph : Graph) : Prop := ∀ world ∈ graph.worlds, world.HasPlainNames

/-! ### Copies -/

namespace IsCopyOf

variable {copy source : Graph} {origin : Renaming}

theorem isWritable (isCopy : copy.IsCopyOf source origin via) (writable : source.IsWritable) :
    copy.IsWritable := by
  intro arena id entity found
  obtain ⟨original, isOriginal, copied⟩ := isCopy.copied id entity found
  exact copied.isWritable (writable arena _ original isOriginal)

/-- A copy has no more entities than its source. -/
theorem size_le (isCopy : copy.IsCopyOf source origin via) (arena : Arena) :
    copy.size arena ≤ source.size arena := by
  have length (graph : Graph) : (graph.ids arena).length = graph.size arena := by simp [ids]
  rw [← length, ← length, ← List.length_map (origin : Id arena → Id arena)]
  refine List.Subperm.length_le (List.Nodup.subperm ?_ ?_)
  · refine List.Nodup.map_on ?_ (copy.nodup_ids arena)
    intro id isId other isOther same
    have back := congrArg (via : Id arena → Id arena) same
    rwa [isCopy.via_origin _ ((mem_ids_iff _ _).mp isId),
      isCopy.via_origin _ ((mem_ids_iff _ _).mp isOther)] at back
  · intro id member
    obtain ⟨other, isId, rfl⟩ := List.mem_map.mp member
    obtain ⟨entity, found⟩ := (holds_iff_entity? _ _).mp ((mem_ids_iff _ _).mp isId)
    obtain ⟨original, isOriginal, -⟩ := isCopy.copied other entity found
    exact (mem_ids_iff _ _).mpr ((holds_iff_entity? _ _).mpr ⟨original, isOriginal⟩)

/-- **The keys of a copy are told apart by their texts** if no name in the source is spelled like the
key of an interface. -/
theorem isLegible (isCopy : copy.IsCopyOf source origin via) (linked : source.WellLinked)
    (plain : source.HasPlainNames) {world : World} (member : world ∈ copy.worlds) :
    world.IsLegible := by
  obtain ⟨index, isWorld⟩ := Array.getElem?_of_mem member
  obtain ⟨original, isOriginal, copied⟩ := isCopy.copied (⟨index⟩ : WorldId) world isWorld
  refine World.isLegible (fun entry isEntry id isKey => ?_) fun entry isEntry name isName id => ?_
  · exact isCopy.keyed linked (show copy.world? ⟨index⟩ = some world from isWorld) isEntry isKey
  · obtain ⟨⟨key, item⟩, inside, rfl⟩ := Entity.IsCopy.exists_entry copied isEntry
    cases key with
    | name text =>
      cases isName
      exact plain original (Array.mem_of_getElem? isOriginal) _ inside _ rfl id
    | interface before => cases isName

end IsCopyOf

/-! ### Pruned graphs -/

/-- The text of a pruned graph is read as the pruned graph with its keys read again. -/
theorem ofText_pruneTo {graph : Graph} (isRead : graph.IsRead) (addressable : graph.IsAddressable)
    (target : Node) :
    ofText (graph.pruneTo target).text = .ok (graph.pruneTo target).respelled := by
  have linked := wellLinked_of_isRead isRead
  obtain ⟨origin, via, isCopy⟩ := linked.exists_isCopyOf target
  refine (isCopy.isWritable (isWritable_of_isRead isRead)).reads_respelled
    (linked.isClosed_pruneTo target) ?_ ?_
  · exact fun arena => Nat.le_trans (isCopy.size_le arena) (addressable arena)
  · have distinct := isCopy.nodup_names linked.named
    have named := entries_withPackageNames distinct
    have fromNothing : ((∅ : OrderedMap Ident PackageId).keys
        ++ (graph.pruneTo target).packages.toList.map Package.name).Nodup := distinct
    obtain ⟨entered, areEntered, entries⟩ := Document.exists_enterNames 0 fromNothing
    rw [areEntered, OrderedMap.ext (entries.trans named.symm)]
    rfl

/-- **What is read of the text of a pruned graph**: the pruned graph with its keys read again. This is
the pruned graph exactly if its keys are told apart by their texts, as they are if no name in the graph
is spelled like the key of an interface. -/
theorem ofText_text_pruneTo {graph : Graph} (isRead : graph.IsRead)
    (addressable : graph.IsAddressable) (target : Node) :
    ofText (graph.pruneTo target).text = .ok (graph.pruneTo target).respelled
      ∧ (ofText (graph.pruneTo target).text = .ok (graph.pruneTo target)
        ↔ ∀ world ∈ (graph.pruneTo target).worlds, world.IsLegible)
      ∧ (graph.HasPlainNames → ofText (graph.pruneTo target).text = .ok (graph.pruneTo target)) := by
  have readBack := ofText_pruneTo isRead addressable target
  have same : ofText (graph.pruneTo target).text = .ok (graph.pruneTo target)
      ↔ ∀ world ∈ (graph.pruneTo target).worlds, world.IsLegible := by
    rw [readBack, Except.ok.injEq, respelled_eq_self_iff]
  refine ⟨readBack, same, fun plain => same.mpr fun world member => ?_⟩
  have linked := wellLinked_of_isRead isRead
  obtain ⟨origin, via, isCopy⟩ := linked.exists_isCopyOf target
  exact isCopy.isLegible linked plain member

/-- The keys of the document's world are interfaces. -/
theorem Sample.hasPlainNames : Sample.graph.HasPlainNames := by
  have keys : ∀ world ∈ Sample.graph.worlds.toList, ∀ entry ∈ world.entries,
      entry.1.name? = none := by
    decide +kernel
  intro world isWorld entry member name isName
  have noName := keys world (Array.mem_toList_iff.mpr isWorld) entry member
  rw [isName] at noName
  cases noName

/-- Pruned to its second interface, the document's graph has a world in which this interface has a new
key, and it is read back. -/
theorem ofText_text_pruneTo_interface :
    let pruned := Sample.graph.pruneTo (.item ⟨.interface, 1⟩)
    Sample.graph.IsRead ∧ Sample.graph.IsAddressable ∧ Sample.graph.HasPlainNames
      ∧ pruned.worlds.toList.map (·.entries.map Prod.fst) = [[.interface ⟨0⟩]]
      ∧ ofText pruned.text = .ok pruned := by
  have isRead : Sample.graph.IsRead := ⟨_, Sample.accepted⟩
  have addressable : Sample.graph.IsAddressable := by
    intro arena
    cases arena <;> decide
  refine ⟨isRead, addressable, Sample.hasPlainNames, by decide +kernel, ?_⟩
  exact (ofText_text_pruneTo isRead addressable _).2.2 Sample.hasPlainNames

/-! ### A clash of keys -/

namespace Clash

/-- The lines of a document with a function and an interface under names that look alike. -/
def lines : List String := [
  "\x7b\"worlds\":[\x7b\"name\":\"w\",\"package\":0,\"imports\":\x7b",
  "\"interface-0\":\x7b\"function\":\x7b\"name\":\"interface-0\",\"kind\":\"freestanding\"\x7d\x7d,",
  "\"interface-1\":\x7b\"interface\":1\x7d\x7d\x7d],",
  "\"interfaces\":[\x7b\"name\":\"a\",\"package\":0\x7d,\x7b\"name\":\"b\",\"package\":0\x7d],",
  "\"packages\":[\x7b\"name\":\"x:y\",\"interfaces\":\x7b\"a\":0,\"b\":1\x7d,",
  "\"worlds\":\x7b\"w\":0\x7d\x7d]\x7d"]

/-- The function that is imported. -/
def function : Function where
  name := "interface-0"
  kind := .freestanding
  params := []
  results := .named []

/-- The graph that the document describes. -/
def graph : Graph where
  worlds := #[
    { name := "w", package := some ⟨0⟩
      imports := .ofList [(.name "interface-0", .function function),
        (.interface ⟨1⟩, .interface ⟨1⟩ .unknown)] }]
  interfaces := #[{ name := some "a", package := some ⟨0⟩ }, { name := some "b", package := some ⟨0⟩ }]
  packages := #[
    { name := { ns := "x", package := "y" }
      interfaces := .ofList [("a", ⟨0⟩), ("b", ⟨1⟩)], worlds := .ofList [("w", ⟨0⟩)] }]
  packageNames := .ofList [({ ns := "x", package := "y" }, ⟨0⟩)]

theorem accepted : ofText ("\n".intercalate lines) = .ok graph := by
  rw [ofText_intercalate]
  decide +kernel

/-- The graph pruned to its world. -/
def pruned : Graph := graph.pruneTo (.item ⟨.world, 0⟩)

end Clash

/-- **A pruned graph need not be read back**: the interface gets the name of the function, and the import
of the function is lost. -/
theorem exists_import_lost :
    ofText ("\n".intercalate Clash.lines) = .ok Clash.graph
      ∧ Clash.pruned.worlds.toList.map World.functions = [[Clash.function]]
      ∧ ∃ again, ofText Clash.pruned.text = .ok again ∧ again ≠ Clash.pruned
        ∧ again.worlds.toList.map World.functions = [[]] := by
  have isRead : Clash.graph.IsRead := ⟨_, Clash.accepted⟩
  have addressable : Clash.graph.IsAddressable := by
    intro arena
    cases arena <;> decide
  have before : Clash.pruned.worlds.toList.map World.functions = [[Clash.function]] := by
    decide +kernel
  have after : Clash.pruned.respelled.worlds.toList.map World.functions = [[]] := by
    decide +kernel
  refine ⟨Clash.accepted, before, _, ofText_pruneTo isRead addressable _, fun same => ?_, after⟩
  have functions : [[]] = [[Clash.function]] :=
    after.symm.trans ((congrArg (fun graph => graph.worlds.toList.map World.functions) same).trans before)
  cases functions

end Graph

end WitGraph
