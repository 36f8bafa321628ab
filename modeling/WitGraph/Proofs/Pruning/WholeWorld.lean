/-
**Pruning to a world.**

A graph that is pruned to one of its worlds holds a copy of the world with all its imports and exports
(`IsClosed.exists_wholeCopy`), since the world depends on each of them.

If no interface and no other world depends on the world (`Graph.IsOutermost`), then a package that
depends on it lists it (`IsOutermost.listed`), and the copy of the package lists the copy of the world.
What the world depends on, its copy depends on as well, for the copy has all paths of the world
(`IsCopyOf.reaches_via_world`). So a second pruning, to the copy of the world, changes nothing
(`pruneTo_world_again`).

Without the assumption a second pruning may leave out more: a package is kept if one of its interfaces
depends on the world, but it loses this interface if the world does not depend on the interface, and
then nothing relates the package to the world.
-/

import WitGraph.Proofs.Pruning.Again

namespace WitGraph

/-- The first world is the second one with its ids renamed and with all imports and exports in their
order. -/
structure World.IsWholeCopy (via : Renaming) (copy original : World) : Prop where
  sides : ∀ side, (copy.side side).entries
    = (original.side side).entries.map (WorldItem.renameEntry via)
  rest : copy = { original with
    imports := copy.imports, exports := copy.exports, package := original.package.map via }

/-- A world that has been copied whole contains copies of all that it contained. -/
theorem World.IsWholeCopy.nodes_eq {via : Renaming} {copy original : World}
    (whole : copy.IsWholeCopy via original) (id : WorldId) :
    copy.nodes (via id) = (original.nodes id).map (Node.rename via) := by
  have side (side : Side) :
      (copy.side side).entries.map (fun entry => entry.2.node (via id) side entry.1)
        = ((original.side side).entries.map fun entry => entry.2.node id side entry.1).map
            (Node.rename via) := by
    rw [whole.sides, List.map_map, List.map_map]
    exact List.map_congr_left fun entry _ => WorldItem.node_rename id side entry
  rw [nodes, nodes, List.map_append]
  exact congrArg₂ _ (side .imports) (side .exports)

namespace Graph

section Worlds

variable {graph : Graph} {target : Node} {id : WorldId} {world : World}

/-! ### What a world depends on -/

theorem dependsOn_of_reaches {node dependency : Node} (present : graph.HasNode dependency)
    (path : graph.Reaches node dependency) : graph.dependsOn node dependency = true :=
  (dependsOn_iff graph node (mem_nodes_iff.mpr present)).mpr ⟨dependency, path, Or.inl rfl⟩

theorem dependsOn_self {node : Node} (present : graph.HasNode node) :
    graph.dependsOn node node = true := dependsOn_of_reaches present .refl

/-- All entries of a world are left when the graph is pruned to something that reaches the world. -/
theorem IsClosed.leaves_of_reaches (closed : graph.IsClosed) (found : graph.world? id = some world)
    (path : graph.Reaches target (.item id.item)) {side : Side} {entry : WorldKey × WorldItem}
    (listed : entry ∈ (world.side side).entries) : graph.leaves target id side entry = true := by
  have contained : graph.Contains (.item id.item) (entry.2.node id side entry.1) :=
    .worldEntry found listed
  have depends : graph.dependsOn target (entry.2.node id side entry.1) = true :=
    dependsOn_of_reaches (closed.hasNode_of_contains contained) (path.tail contained)
  obtain ⟨key, item⟩ := entry
  cases item with
  | type other => rfl
  | interface other stability => exact depends
  | function function => exact depends

theorem isKept_self (held : graph.Holds id.item) :
    graph.isKept (.item id.item) id.item = true :=
  isKept_of_isFirst held (dependsOn_self (show graph.HasNode (.item id.item) from held))

/-- **A kept world that the target reaches is copied whole.** -/
theorem IsClosed.exists_wholeCopy_of_reaches (closed : graph.IsClosed)
    (found : graph.world? id = some world) (kept : graph.isKept target id.item = true)
    (path : graph.Reaches target (.item id.item)) :
    ∃ copy : World, (graph.pruneTo target).world? (graph.copyId target id) = some copy
      ∧ copy.IsWholeCopy (graph.copyId target) world := by
  have held : graph.Holds id.item := (holds_iff_entity? _ id.item).mpr ⟨world, found⟩
  obtain ⟨original, copy, isOriginal, isCopy, isPruned⟩ := exists_pruned_copy closed held kept
  cases found.symm.trans isOriginal
  refine ⟨copy, isCopy, ⟨fun side => ?_, isPruned.2.2⟩⟩
  have all : ∀ entry ∈ (world.side side).entries, graph.leaves target id side entry = true :=
    fun _ listed => closed.leaves_of_reaches found path listed
  rw [IsPruned.entries_side isPruned side, List.filter_eq_self.mpr all]

/-- The world to which a graph is pruned is copied whole. -/
theorem IsClosed.exists_wholeCopy (closed : graph.IsClosed) (found : graph.world? id = some world) :
    ∃ copy : World,
      (graph.pruneTo (.item id.item)).world? (graph.copyId (.item id.item) id) = some copy
        ∧ copy.IsWholeCopy (graph.copyId (.item id.item)) world :=
  closed.exists_wholeCopy_of_reaches found
    (isKept_self ((holds_iff_entity? _ id.item).mpr ⟨world, found⟩)) .refl

/-! ### Paths from the copy of a world -/

/-- Paths from the original of an item that has been copied whole are paths of originals, if so are
those from what the copy contains. -/
theorem IsCopyOf.reaches_via_whole {copy source : Graph} {origin via : Renaming}
    (isCopy : copy.IsCopyOf source origin via) (closed : copy.IsClosed) {arena : Arena} {id : Id arena}
    {entity original : Entity arena} (found : copy.entity? id = some entity)
    (isOriginal : source.entity? (origin id) = some original)
    (whole : entity.nodes id = (original.nodes (origin id)).map (Node.rename via))
    (inside : ∀ inner, copy.Contains (.item id.item) inner →
      ∀ next, source.Reaches (inner.rename origin) next →
        ∃ reached, copy.Reaches inner reached ∧ reached.rename origin = next)
    {next : Node} (path : source.Reaches (.item (origin id).item) next) :
    ∃ reached, copy.Reaches (.item id.item) reached ∧ reached.rename origin = next := by
  rcases Relation.ReflTransGen.cases_head path with rfl | ⟨first, step, rest⟩
  · exact ⟨_, .refl, rfl⟩
  · obtain ⟨inner, contained, rfl⟩ := isCopy.contains_via_item closed found isOriginal whole step
    obtain ⟨reached, pathInside, same⟩ := inside inner contained next rest
    exact ⟨reached, .head contained pathInside, same⟩

/-- A path from the original of a world that has been copied whole is the path of originals of a path
from the copy. -/
theorem IsCopyOf.reaches_via_world {copy source : Graph} {origin via : Renaming}
    (isCopy : copy.IsCopyOf source origin via) (closed : copy.IsClosed) {copied : World}
    (found : copy.world? (via id) = some copied) (isOriginal : source.world? id = some world)
    (whole : copied.IsWholeCopy via world) {next : Node}
    (path : source.Reaches (.item id.item) next) :
    ∃ reached, copy.Reaches (.item (via id).item) reached ∧ reached.rename origin = next := by
  have back : origin (via id) = id :=
    isCopy.origin_via id ((holds_iff_entity? _ (via id).item).mpr ⟨copied, found⟩)
  have nodes : copied.nodes (via id) = (world.nodes (origin (via id))).map (Node.rename via) := by
    rw [back]
    exact whole.nodes_eq id
  rw [← back] at isOriginal path
  refine isCopy.reaches_via_whole closed found isOriginal nodes (fun inner contained _ rest => ?_) path
  obtain ⟨entity, isWorld, listed⟩ := contains_item_iff.mp contained
  obtain ⟨side, entry, -, rfl⟩ := World.mem_nodes_iff.mp listed
  exact isCopy.reaches_via closed (WorldItem.isPart_node ..) (closed.hasNode_of_contains contained) rest

/-! ### What depends on a world -/

/-- No interface and no other world depends on the world. -/
structure IsOutermost (graph : Graph) (id : WorldId) : Prop where
  interfaces : ∀ other : InterfaceId, graph.Holds other.item →
    graph.dependsOn (.item other.item) (.item id.item) = false
  worlds : ∀ other : WorldId, graph.Holds other.item → other ≠ id →
    graph.dependsOn (.item other.item) (.item id.item) = false

/-- A package depends on an outermost world only if it lists the world. -/
theorem IsOutermost.listed (outermost : graph.IsOutermost id) (closed : graph.IsClosed)
    (held : graph.Holds id.item) {package : PackageId} {original : Package}
    (found : graph.package? package = some original)
    (depends : graph.dependsOn (.item package.item) (.item id.item) = true) :
    id ∈ original.worlds.values := by
  have present : Node.item id.item ∈ graph.nodes := mem_nodes_iff.mpr held
  obtain ⟨reached, path, either⟩ := (dependsOn_iff graph _ present).mp depends
  rcases Relation.ReflTransGen.cases_head path with rfl | ⟨first, step, rest⟩
  · -- a package is not a world, and it has no links back
    rcases either with same | linked
    · cases same
    · cases mem_backLinks_of_linkedBack linked
  · have later : graph.dependsOn first (.item id.item) = true :=
      (dependsOn_iff graph first present).mpr ⟨reached, rest, either⟩
    have inside := closed.hasNode_of_contains step
    obtain ⟨other, isOther, listed⟩ := contains_item_iff.mp step
    cases found.symm.trans isOther
    rcases List.mem_append.mp listed with inInterfaces | inWorlds
    · obtain ⟨interface, -, rfl⟩ := List.mem_map.mp inInterfaces
      have independent := outermost.interfaces interface inside
      exact absurd (independent.symm.trans later) Bool.false_ne_true
    · obtain ⟨other, isValue, rfl⟩ := List.mem_map.mp inWorlds
      by_cases same : other = id
      · exact same ▸ isValue
      · have independent := outermost.worlds other inside same
        exact absurd (independent.symm.trans later) Bool.false_ne_true

/-- A package that depends on an outermost world still does so when the graph is pruned to the world. -/
theorem IsOutermost.package_depends (outermost : graph.IsOutermost id) (closed : graph.IsClosed)
    (held : graph.Holds id.item) {package : PackageId} (inside : graph.Holds package.item)
    (depends : graph.dependsOn (.item package.item) (.item id.item) = true) :
    (graph.pruneTo (.item id.item)).dependsOn
      (.item (graph.copyId (.item id.item) package).item)
      (.item (graph.copyId (.item id.item) id).item) = true := by
  have kept : graph.isKept (.item id.item) package.item = true :=
    isKept_of_isFirst inside ((Bool.or_eq_true _ _).mpr (Or.inl depends))
  obtain ⟨original, pruned, isOriginal, found, isPruned⟩ := exists_pruned_copy closed inside kept
  have listed : graph.copyId (.item id.item) id ∈ (Package.worlds pruned).values := by
    obtain ⟨name, isEntry⟩ :=
      (OrderedMap.mem_values_iff _).mp (outermost.listed closed held isOriginal depends)
    rw [congrArg Package.worlds isPruned]
    refine (OrderedMap.mem_values_iff _).mpr ⟨name, List.mem_map.mpr ⟨(name, id), ?_, rfl⟩⟩
    exact List.mem_filter.mpr ⟨isEntry, isKept_self held⟩
  have present : (graph.pruneTo (.item id.item)).HasNode
      (.item (graph.copyId (.item id.item) id).item) := holds_copyId closed held (isKept_self held)
  exact dependsOn_of_reaches present (.single (.packageWorld found listed))

/-- **What an outermost world needs, and what needs it, does so in the graph that is pruned to it.** -/
theorem IsOutermost.keepsTarget (outermost : graph.IsOutermost id) (linked : graph.WellLinked)
    (found : graph.world? id = some world) : graph.KeepsTarget (.item id.item) := by
  have held : graph.Holds id.item := (holds_iff_entity? _ id.item).mpr ⟨world, found⟩
  have closed := linked.isClosed_pruneTo (.item id.item)
  have isCopy := linked.isCopyOf_pruneTo (.item id.item)
  obtain ⟨copy, isWorld, whole⟩ := linked.closed.exists_wholeCopy found
  have present : (graph.pruneTo (.item id.item)).HasNode (graph.copyTarget (.item id.item)) :=
    (holds_iff_entity? _ (graph.copyId (.item id.item) id).item).mpr ⟨copy, isWorld⟩
  refine ⟨fun node isNode needed => ?_, fun item inside either needing => ?_⟩
  · -- the paths from the world are those of its copy, and so are the dependencies
    refine isCopy.dependsOn_via closed present isNode (fun next path => ?_) ?_
    · rw [copyTarget, isCopy.rename_origin_via closed present] at path
      exact isCopy.reaches_via_world closed isWorld found whole path
    · rwa [copyTarget, isCopy.rename_origin_via closed present, isCopy.rename_origin_via closed isNode]
  · obtain ⟨arena, index⟩ := item
    rcases either with isPackage | isWorld
    · cases (isPackage : arena = .package)
      have isHeld : graph.Holds (Id.item (⟨index⟩ : PackageId)) := inside
      exact outermost.package_depends linked.closed held isHeld needing
    · cases (isWorld : arena = .world)
      by_cases same : (⟨index⟩ : WorldId) = id
      · subst same
        exact dependsOn_self present
      · have independent := outermost.worlds ⟨index⟩ inside same
        exact absurd (independent.symm.trans needing) Bool.false_ne_true

end Worlds

/-! ### Pruning twice -/

/-- **Pruning to a world keeps the world whole, and pruning once more to its copy changes nothing** if no
interface and no other world depends on the world, and methods and constructors mention their
resources. -/
theorem pruneTo_world_again {graph : Graph} (isRead : graph.IsRead) {id : WorldId} {world : World}
    (found : graph.world? id = some world) :
    let pruned := graph.pruneTo (.item id.item)
    let via : Renaming := graph.copyId (.item id.item)
    pruned.IsCopyOf graph (graph.originalId (.item id.item)) via
      ∧ (∃ copy : World, pruned.world? (via id) = some copy ∧ copy.IsWholeCopy via world)
      ∧ (graph.IsOutermost id → graph.MentionsResources →
        let again := pruned.pruneTo (.item (via id).item)
        again.text = pruned.text ∧ again.packageNames = pruned.packageNames ∧ again = pruned) := by
  have linked := wellLinked_of_isRead isRead
  refine ⟨linked.isCopyOf_pruneTo _, linked.closed.exists_wholeCopy found, ?_⟩
  intro outermost mentions
  have same : (graph.pruneTo (.item id.item)).pruneTo (graph.copyTarget (.item id.item))
      = graph.pruneTo (.item id.item) :=
    (outermost.keepsTarget linked found).pruneTo_pruneTo linked mentions
  exact ⟨congrArg text same, congrArg packageNames same, same⟩

namespace Owned

/-- The lines of a document with two worlds. The first one imports an interface with a list of a type
that the second one owns, and exports a function. -/
def lines : List String := [
  "\x7b\"worlds\":[\x7b\"name\":\"w\",\"package\":0,",
  "\"imports\":\x7b\"interface-0\":\x7b\"interface\":0\x7d\x7d,",
  "\"exports\":\x7b\"run\":\x7b\"function\":\x7b\"name\":\"run\",",
  "\"kind\":\"freestanding\"\x7d\x7d\x7d\x7d,",
  "\x7b\"name\":\"v\",\"package\":0,\"imports\":\x7b\"t\":\x7b\"type\":0\x7d,",
  "\"interface-1\":\x7b\"interface\":1\x7d\x7d\x7d],",
  "\"interfaces\":[\x7b\"name\":\"i\",\"package\":0,",
  "\"types\":\x7b\"u\":1,\"blob\":2\x7d,",
  "\"functions\":\x7b\"[method]blob.read\":\x7b",
  "\"name\":\"[method]blob.read\",\"kind\":\x7b\"method\":2\x7d,",
  "\"params\":[\x7b\"name\":\"self\",\"type\":3\x7d],",
  "\"results\":[\x7b\"type\":\"u8\"\x7d]\x7d\x7d\x7d,",
  "\x7b\"name\":\"k\",\"package\":0\x7d],",
  "\"types\":[\x7b\"name\":\"t\",\"kind\":\x7b\"list\":\"u8\"\x7d,\"owner\":\x7b\"world\":1\x7d\x7d,",
  "\x7b\"name\":\"u\",\"kind\":\x7b\"list\":0\x7d,\"owner\":\x7b\"interface\":0\x7d\x7d,",
  "\x7b\"name\":\"blob\",\"kind\":\"resource\",\"owner\":\x7b\"interface\":0\x7d\x7d,",
  "\x7b\"kind\":\x7b\"handle\":\x7b\"borrow\":2\x7d\x7d\x7d],",
  "\"packages\":[\x7b\"name\":\"a:b\",\"interfaces\":\x7b\"i\":0,\"k\":1\x7d,",
  "\"worlds\":\x7b\"w\":0,\"v\":1\x7d\x7d]\x7d"]

/-- The first world. -/
def world : World where
  name := "w"
  imports := .ofList [(.interface ⟨0⟩, .interface ⟨0⟩ .unknown)]
  exports := .ofList [(.name "run", .function
    { name := "run", kind := .freestanding, params := [], results := .named [] })]
  package := some ⟨0⟩

/-- The graph that the document describes. -/
def graph : Graph where
  worlds := #[world,
    { name := "v", package := some ⟨0⟩
      imports := .ofList [(.name "t", .type ⟨0⟩), (.interface ⟨1⟩, .interface ⟨1⟩ .unknown)] }]
  interfaces := #[
    { name := some "i", package := some ⟨0⟩
      types := .ofList [("u", ⟨1⟩), ("blob", ⟨2⟩)]
      functions := .ofList [("[method]blob.read", Sample.read)] },
    { name := some "k", package := some ⟨0⟩ }]
  types := #[
    { name := some "t", kind := .list (.primitive .u8), owner := .world ⟨1⟩ },
    { name := some "u", kind := .list (.defined ⟨0⟩), owner := .interface ⟨0⟩ },
    { name := some "blob", kind := .resource, owner := .interface ⟨0⟩ },
    { kind := .borrow ⟨2⟩ }]
  packages := #[
    { name := { ns := "a", package := "b" }, interfaces := .ofList [("i", ⟨0⟩), ("k", ⟨1⟩)]
      worlds := .ofList [("w", ⟨0⟩), ("v", ⟨1⟩)] }]
  packageNames := .ofList [({ ns := "a", package := "b" }, ⟨0⟩)]

theorem accepted : ofText ("\n".intercalate lines) = .ok graph := by
  rw [ofText_intercalate]
  decide +kernel

theorem mentionsResources : graph.MentionsResources :=
  mentionsResources_of_direct (by decide +kernel)

theorem isOutermost : graph.IsOutermost ⟨0⟩ where
  interfaces other held := by
    have none : ∀ other ∈ graph.ids .interface,
        graph.dependsOn (.item other.item) (.item (Id.item (⟨0⟩ : WorldId))) = false := by
      decide +kernel
    exact none other ((graph.mem_ids_iff other).mpr held)
  worlds other held differ := by
    have none : ∀ other ∈ graph.ids .world, other ≠ ⟨0⟩ →
        graph.dependsOn (.item other.item) (.item (Id.item (⟨0⟩ : WorldId))) = false := by
      decide +kernel
    exact none other ((graph.mem_ids_iff other).mpr held) differ

end Owned

/-- The document's graph, pruned to its first world and once more to the copy of this world. The other
world is kept without one of its imports, as the owner of a type. -/
theorem pruneTo_world_again_owned :
    let pruned := Owned.graph.pruneTo (.item (Id.item (⟨0⟩ : WorldId)))
    let via : Renaming := Owned.graph.copyId (.item (Id.item (⟨0⟩ : WorldId)))
    (∃ copy : World, pruned.world? (via (⟨0⟩ : WorldId)) = some copy
        ∧ copy.IsWholeCopy via Owned.world)
      ∧ Owned.graph.IsOutermost ⟨0⟩ ∧ Owned.graph.MentionsResources
      ∧ pruned.pruneTo (.item (via (⟨0⟩ : WorldId)).item) = pruned ∧ pruned ≠ Owned.graph := by
  have isRead : Owned.graph.IsRead := ⟨_, Owned.accepted⟩
  obtain ⟨-, whole, again⟩ :=
    pruneTo_world_again isRead (show Owned.graph.world? ⟨0⟩ = some Owned.world from rfl)
  obtain ⟨-, -, same⟩ := again Owned.isOutermost Owned.mentionsResources
  refine ⟨whole, Owned.isOutermost, Owned.mentionsResources, same, ?_⟩
  decide +kernel

end Graph

end WitGraph
