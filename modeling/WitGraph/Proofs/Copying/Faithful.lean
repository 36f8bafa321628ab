/-
**A copier makes one faithful copy of everything that is reached.**

Items are copied one after another by one copier (`copyEach`) into a target that may hold other items
already. `FaithfulCopy` says what is there in the end: what the target held is as it was, exactly the
items that the calls reach have a copy, different items have different copies, and every copy is the
original with each id replaced by that of its copy. Copying one of these items once more changes
nothing.

* `Faithful.copy` is the step: one more call brings exactly what it reaches;
* `copyEach_faithfulCopy` is the statement about all calls.

A call makes room for everything that it reaches before it fills any of it. So circles through owners
and packages need no care of their own: whatever a copy refers to has a copy (`IsFilled.links`).
-/

import WitGraph.Proofs.Copying.Settled
import WitGraph.Proofs.Document.WellLinked

namespace WitGraph.Copier

variable {copier before after : Copier} {source base : Graph}

/-! ### Copies that are complete -/

/-- Every copy is filled with what its original holds. -/
def IsComplete (copier : Copier) : Prop :=
  ∀ item, copier.Copied item →
    ∃ entity, copier.source.entity? item.id = some entity ∧ copier.IsFilled item entity

theorem Brings.isComplete {items : List Item} (brings : before.Brings items after)
    (complete : before.IsComplete) : after.IsComplete := by
  intro item copied
  rw [brings.source]
  rcases brings.fresh item copied with early | filled
  · obtain ⟨entity, found, filled⟩ := complete item early
    exact ⟨entity, found, brings.filled item entity filled⟩
  · exact filled

/-- What a copied item reaches has been copied. -/
theorem IsComplete.copied_of_reaches (complete : copier.IsComplete) {root item : Item}
    (copied : copier.Copied root) (path : Search.Reaches copier.source.links root item) :
    copier.Copied item := by
  induction path with
  | refl => exact copied
  | tail _ link ih =>
    obtain ⟨entity, found, filled⟩ := complete _ ih
    rw [Graph.links_of_entity? found] at link
    exact filled.links _ link

/-- Bringing items copies what they reach and nothing else. -/
theorem copied_bring_iff (tidy : copier.Tidy base) (complete : copier.IsComplete)
    (closed : copier.source.IsClosed) {items : List Item}
    (held : ∀ item ∈ items, copier.source.Holds item) {item : Item} :
    (copier.bring items).Copied item
      ↔ copier.Copied item ∨ ∃ root ∈ items, Search.Reaches copier.source.links root item := by
  have brings := bring_brings tidy closed held
  constructor
  · intro copied
    exact (copied_or_missing_of_bring copied).imp_right ((copier.misses_missing items).reached item)
  · rintro (early | ⟨root, isRoot, path⟩)
    · exact brings.copied early
    · rw [← brings.source] at path
      exact (brings.isComplete complete).copied_of_reaches (brings.covered root isRoot) path

/-! ### One call after another -/

/-- Copies items one after another, and lists the copies as they are handed out. -/
def copyEach (copier : Copier) : List Item → Copier × List Item
  | [] => (copier, [])
  | call :: rest =>
    let first := copier.copy call.id
    let others := first.1.copyEach rest
    (others.1, first.2.item :: others.2)

/-- What a copier keeps from call to call: exactly what the calls reach has been copied, completely
and behind what the target held. -/
structure Faithful (source base : Graph) (calls : List Item) (copier : Copier) : Prop where
  origin : copier.source = source
  tidy : copier.Tidy base
  complete : copier.IsComplete
  copied : ∀ item, copier.Copied item
    ↔ ∃ call ∈ calls, Search.Reaches source.links call item

theorem faithful_start (source target : Graph) :
    Faithful source target [] { source, target } where
  origin := rfl
  tidy := tidy_start source target
  complete := by
    rintro item ⟨place, found⟩
    cases found
  copied item := by simp [Copied, position?]

/-- **One more call copies exactly what it reaches.** -/
theorem Faithful.copy (closed : source.IsClosed) {calls : List Item}
    (faithful : Faithful source base calls copier) {call : Item} (held : source.Holds call) :
    Faithful source base (calls ++ [call]) (copier.copy call.id).1 := by
  obtain ⟨rfl, tidy, complete, copied⟩ := faithful
  have heldAll : ∀ item ∈ [call], copier.source.Holds item := by simpa using held
  have brings := bring_brings tidy closed heldAll
  refine ⟨brings.source, brings.tidy tidy, brings.isComplete complete, fun item => ?_⟩
  show (copier.bring [call]).Copied item ↔ _
  rw [copied_bring_iff tidy complete closed heldAll, copied]
  simp only [List.mem_append, or_and_right, exists_or]

/-- Later calls keep what has been copied and hand out the same ids. -/
theorem Faithful.copyEach (closed : source.IsClosed) {calls later : List Item}
    (faithful : Faithful source base calls copier) (held : ∀ call ∈ later, source.Holds call) :
    Faithful source base (calls ++ later) (copier.copyEach later).1
      ∧ Extends copier (copier.copyEach later).1
      ∧ (copier.copyEach later).2 = later.map (Item.rename (copier.copyEach later).1.renamed) := by
  induction later generalizing calls copier with
  | nil => exact ⟨(List.append_nil calls).symm ▸ faithful, .refl copier, rfl⟩
  | cons call rest ih =>
    have once := faithful.copy closed (held call (List.mem_cons_self ..))
    have extended : Extends copier (copier.copy call.id).1 := copier.extends_bring [call]
    obtain ⟨faithfulThen, extendedThen, answers⟩ :=
      ih once fun item inRest => held item (List.mem_cons_of_mem _ inRest)
    have copied : (copier.copy call.id).1.Copied call :=
      (once.copied call).mpr ⟨call, by simp, .refl⟩
    rw [List.append_assoc] at faithfulThen
    refine ⟨faithfulThen, extended.trans extendedThen, ?_⟩
    show ((copier.copy call.id).1.renamed call.id).item :: ((copier.copy call.id).1.copyEach rest).2
      = _
    rw [answers, ← extendedThen.renamed_eq copied]
    rfl

/-! ### Faithful copies -/

/-- The items that some calls reach have been copied from a source to a target, which held `before`
other items. -/
structure FaithfulCopy (source before : Graph) (calls : List Item) (copier : Copier) : Prop where
  /-- What the target held is as it was. -/
  kept : ∀ {arena : Arena} (id : Id arena), before.Holds id.item →
    copier.target.entity? id = before.entity? id
  names : copier.target.packageNames = before.packageNames
  /-- Exactly what the calls reach has a copy. -/
  copied : ∀ item, copier.Copied item ↔ ∃ call ∈ calls, Search.Reaches source.links call item
  /-- Different items have different copies. -/
  injective : ∀ first second, copier.Copied first → copier.Copied second →
    first.rename copier.renamed = second.rename copier.renamed → first = second
  /-- What is new in the target are the copies. -/
  new : ∀ place, copier.target.Holds place ∧ ¬ before.Holds place
    ↔ ∃ item, copier.Copied item ∧ item.rename copier.renamed = place
  /-- Every copy is the original with each id replaced by that of its copy. -/
  contents : ∀ item, copier.Copied item → ∃ original, source.entity? item.id = some original
    ∧ (∀ link ∈ original.links, copier.Copied link)
    ∧ copier.target.entity? (copier.renamed item.id) = some (original.rename copier.renamed)
  /-- Replacing the ids merges no imports or exports. -/
  entries : ∀ (id : WorldId) (world : World), copier.Copied id.item → source.world? id = some world →
    ∀ side, ((world.rename copier.renamed).side side).entries
      = (world.side side).entries.map (WorldItem.renameEntry copier.renamed)
  /-- Asking for a copied item again gives the same id and changes nothing. -/
  again : ∀ item, copier.Copied item → copier.copy item.id = (copier, copier.renamed item.id)

theorem Faithful.faithfulCopy {calls : List Item} (faithful : Faithful source base calls copier) :
    FaithfulCopy source base calls copier := by
  obtain ⟨rfl, tidy, complete, copied⟩ := faithful
  refine ⟨tidy.kept, tidy.names, copied, ?_, ?_, ?_, ?_, ?_⟩
  · intro first second firstCopied secondCopied same
    exact tidy.renamed_injective firstCopied secondCopied same
  · intro place
    constructor
    · rintro ⟨inside, new⟩
      exact tidy.exists_of_holds inside new
    · rintro ⟨item, present, rfl⟩
      exact ⟨tidy.holds_renamed present, tidy.not_holds_renamed present⟩
  · intro item present
    obtain ⟨original, found, filled⟩ := complete item present
    exact ⟨original, found, filled.links, filled.held⟩
  · intro id world present isWorld side
    obtain ⟨original, found, filled⟩ := complete id.item present
    have same : original = world := Option.some.inj (found.symm.trans isWorld)
    subst same
    exact World.entries_side_rename (tidy.separates filled.links fun _ _ => rfl) side
  · intro item present
    have nothing : copier.bring [item] = copier :=
      bring_of_copied fun other isItem => List.mem_singleton.mp isItem ▸ present
    show (copier.bring [item], (copier.bring [item]).renamed item.id) = _
    rw [nothing]

/-- **Whatever is copied, in whatever order and into whatever target, is copied faithfully**, and
each call hands out the id that the copy has in the end. -/
theorem copyEach_faithfulCopy {source : Graph} (isRead : source.IsRead) (target : Graph)
    {calls : List Item} (held : ∀ call ∈ calls, source.Holds call) :
    ∃ copier, copyEach { source, target } calls = (copier, calls.map (Item.rename copier.renamed))
      ∧ FaithfulCopy source target calls copier := by
  have closed := (Graph.wellLinked_of_isRead isRead).closed
  obtain ⟨faithful, -, answers⟩ := (faithful_start source target).copyEach closed held
  exact ⟨_, Prod.ext rfl answers, faithful.faithfulCopy⟩

/-- The method's resource, the world and a package of the document are copied behind another copy of
the same document. -/
theorem copyEach_faithfulCopy_sample :
    let calls : List Item := [⟨.type, 2⟩, ⟨.world, 0⟩, ⟨.package, 1⟩, ⟨.type, 2⟩]
    Graph.Sample.graph.IsRead ∧ (∀ call ∈ calls, Graph.Sample.graph.Holds call)
      ∧ ∃ copier, copyEach { source := Graph.Sample.graph, target := Graph.Sample.graph } calls
            = (copier, calls.map (Item.rename copier.renamed))
        ∧ FaithfulCopy Graph.Sample.graph Graph.Sample.graph calls copier :=
  have isRead : Graph.Sample.graph.IsRead := ⟨_, Graph.Sample.accepted⟩
  have held : ∀ call ∈ [⟨.type, 2⟩, ⟨.world, 0⟩, ⟨.package, 1⟩, ⟨.type, 2⟩],
      Graph.Sample.graph.Holds call := by decide
  ⟨isRead, held, copyEach_faithfulCopy isRead Graph.Sample.graph held⟩

end WitGraph.Copier
