/-
**Live types and dependencies.**

`LiveTypes` finds types by going from type to type. `Graph.dependsOn` finds them by going from node to
node and passes functions on its way. What they find differs in one thing only: a method or constructor
depends on its resource, but makes it live only if its signature leads there.

* `mem_order_iff`: the live types are those that the signatures and types that have been added reach;
* `dependsOn_type_iff`: an interface depends on the types that its types and functions reach, and a
  world on those that its imports and exports reach;
* `liveTypes_agree`: so the live types of an interface or world are the types that it depends on, apart
  from what only the resources of its methods and constructors reach.
-/

import WitGraph.Proofs.Document.RoundTrip
import WitGraph.Proofs.Document.WellLinked
import WitGraph.Proofs.LiveTypes
import WitGraph.Proofs.Nodes
import WitGraph.Proofs.Pruning.Kept

namespace WitGraph

/-! ### Resources and owners -/

/-- The resource of a method or constructor. -/
def Function.boundResource? (function : Function) : Option TypeId :=
  match function.kind with
  | .method id | .constructor id => some id
  | _ => none

theorem Function.mem_mentionedIds_iff_signature {function : Function} {id : TypeId} :
    id ∈ function.mentionedIds ↔ id ∈ function.signatureIds ∨ function.boundResource? = some id := by
  simp only [mentionedIds, signatureIds, List.mem_append, Option.mem_toList]
  cases kind : function.kind <;>
    simp [FunctionKind.resource?, staticResource?, boundResource?, kind, or_comm]

theorem Owner.item?_ne_type (owner : Owner) (type : TypeId) : owner.item? ≠ some type.item := by
  cases owner <;> simp [item?, Id.item]

namespace Graph

section

variable {graph : Graph}

/-- The functions of an import or export. -/
def itemFunctions (graph : Graph) : WorldItem → List Function
  | .interface id _ =>
    match graph.interface? id with
    | none => []
    | some interface => interface.functions.values
  | .function function => [function]
  | .type _ => []

/-- The definitions that an import or export mentions, whatever its functions belong to. -/
def itemMentions (graph : Graph) : WorldItem → List TypeId
  | .interface id _ =>
    match graph.interface? id with
    | none => []
    | some interface =>
      interface.types.values ++ interface.functions.values.flatMap Function.mentionedIds
  | .function function => function.mentionedIds
  | .type id => [id]

theorem mem_itemMentions_iff {item : WorldItem} {id : TypeId} :
    id ∈ graph.itemMentions item
      ↔ id ∈ graph.itemTypeIds item
        ∨ ∃ function ∈ graph.itemFunctions item, function.boundResource? = some id := by
  cases item with
  | type other => simp [itemMentions, itemTypeIds, itemFunctions]
  | function function =>
    simp [itemMentions, itemTypeIds, itemFunctions, Function.mem_mentionedIds_iff_signature]
  | interface other stability =>
    cases found : graph.interface? other with
    | none => simp [itemMentions, itemTypeIds, interfaceTypeIds, itemFunctions, found]
    | some interface =>
      simp only [itemMentions, itemTypeIds, interfaceTypeIds, itemFunctions, found, List.mem_append,
        List.mem_flatMap, Function.mem_mentionedIds_iff_signature, and_or_left, exists_or, or_assoc]

/-! ### Live types -/

/-- The live types are those that something added reaches. -/
theorem mem_order_iff {items : List WorldItem} {type : TypeId} :
    type ∈ (items.foldl (LiveTypes.addItem graph) {}).order
      ↔ ∃ item ∈ items, ∃ root ∈ graph.itemTypeIds item,
        Search.Reaches graph.directIds root type := by
  have added : items.foldl (LiveTypes.addItem graph) {}
      = LiveTypes.addEach graph {} (items.map .item) := by
    rw [LiveTypes.addEach, List.foldl_map]
    rfl
  have needed (item : WorldItem) (root : TypeId) :
      graph.Needs (.item item) root ↔ root ∈ graph.itemTypeIds item := mem_rootTypeIds_iff.symm
  rw [added, LiveTypes.mem_order_addEach_iff]
  simp only [List.mem_map, exists_exists_and_eq_and, needed]

/-! ### Types that a node depends on -/

theorem reaches_function_iff {place : FunctionPlace} {function : Function}
    (found : graph.function? place = some function) {type : TypeId} :
    graph.Reaches (.function place) (.item type.item)
      ↔ ∃ root ∈ function.mentionedIds, Search.Reaches graph.directIds root type := by
  constructor
  · intro path
    obtain ⟨⟨⟩⟩ | ⟨between, step, rest⟩ := Relation.ReflTransGen.cases_head path
    obtain ⟨_, same, root, mentioned, rfl⟩ := contains_function_iff.mp step
    cases found.symm.trans same
    obtain ⟨other, sameType, path⟩ := reaches_type_iff.mp rest
    cases Id.item_injective (Node.item.inj sameType)
    exact ⟨root, mentioned, path⟩
  · rintro ⟨root, mentioned, path⟩
    exact .head (contains_function_iff.mpr ⟨function, found, root, mentioned, rfl⟩)
      (reaches_type_iff.mpr ⟨type, rfl, path⟩)

theorem reaches_interface_iff {id : InterfaceId} {stability : Stability} {type : TypeId} :
    graph.Reaches (.item id.item) (.item type.item)
      ↔ ∃ root ∈ graph.itemMentions (.interface id stability),
        Search.Reaches graph.directIds root type := by
  constructor
  · intro path
    obtain ⟨⟨⟩⟩ | ⟨inner, step, rest⟩ := Relation.ReflTransGen.cases_head path
    obtain ⟨interface, found, listed⟩ := contains_item_iff.mp step
    have isInterface : graph.interface? id = some interface := found
    simp only [itemMentions, isInterface]
    rcases List.mem_append.mp listed with inTypes | inFunctions
    · obtain ⟨root, isValue, rfl⟩ := List.mem_map.mp inTypes
      obtain ⟨other, same, path⟩ := reaches_type_iff.mp rest
      cases Id.item_injective (Node.item.inj same)
      exact ⟨root, List.mem_append_left _ isValue, path⟩
    · obtain ⟨name, isName, rfl⟩ := List.mem_map.mp inFunctions
      obtain ⟨function, isEntry⟩ := (OrderedMap.mem_keys_iff _).mp isName
      obtain ⟨root, mentioned, path⟩ :=
        (reaches_function_iff (function?_interface_iff.mpr ⟨interface, isInterface, isEntry⟩)).mp rest
      have isValue := (OrderedMap.mem_values_iff _).mpr ⟨name, isEntry⟩
      exact ⟨root, List.mem_append_right _ (List.mem_flatMap.mpr ⟨function, isValue, mentioned⟩), path⟩
  · rintro ⟨root, member, path⟩
    cases found : graph.interface? id with
    | none => simp [itemMentions, found] at member
    | some interface =>
      simp only [itemMentions, found, List.mem_append, List.mem_flatMap] at member
      rcases member with isValue | ⟨function, isValue, mentioned⟩
      · exact .head (.interfaceType found isValue) (reaches_type_iff.mpr ⟨type, rfl, path⟩)
      · obtain ⟨name, isEntry⟩ := (OrderedMap.mem_values_iff _).mp isValue
        have held := function?_interface_iff.mpr ⟨interface, found, isEntry⟩
        exact .head (contains_container held) ((reaches_function_iff held).mpr ⟨root, mentioned, path⟩)

theorem reaches_world_iff {id : WorldId} {world : World} (found : graph.world? id = some world)
    {type : TypeId} :
    graph.Reaches (.item id.item) (.item type.item)
      ↔ ∃ item ∈ world.items, ∃ root ∈ graph.itemMentions item,
        Search.Reaches graph.directIds root type := by
  -- the step from the world leads to the node of an entry, and from there the path is known
  have entry {side : Side} {key : WorldKey} {item : WorldItem}
      (listed : (key, item) ∈ (world.side side).entries) :
      graph.Reaches (item.node id side key) (.item type.item)
        ↔ ∃ root ∈ graph.itemMentions item, Search.Reaches graph.directIds root type := by
    cases item with
    | interface other stability => exact reaches_interface_iff
    | function function =>
      exact reaches_function_iff (function?_world_iff.mpr ⟨world, found, listed⟩)
    | type other =>
      simp only [itemMentions, List.mem_singleton, exists_eq_left, WorldItem.node, reaches_type_iff]
      constructor
      · rintro ⟨last, same, path⟩
        cases Id.item_injective (Node.item.inj same)
        exact path
      · exact fun path => ⟨type, rfl, path⟩
  constructor
  · intro path
    obtain ⟨⟨⟩⟩ | ⟨inner, step, rest⟩ := Relation.ReflTransGen.cases_head path
    obtain ⟨_, same, isNode⟩ := contains_item_iff.mp step
    cases found.symm.trans same
    obtain ⟨side, ⟨key, item⟩, listed, rfl⟩ := World.mem_nodes_iff.mp isNode
    exact ⟨item, List.mem_map.mpr ⟨(key, item), mem_entries_iff.mpr ⟨side, listed⟩, rfl⟩,
      (entry listed).mp rest⟩
  · rintro ⟨item, isItem, reached⟩
    obtain ⟨⟨key, item⟩, inWorld, rfl⟩ := List.mem_map.mp isItem
    obtain ⟨side, listed⟩ := mem_entries_iff.mp inWorld
    exact .head (.worldEntry found listed) ((entry listed).mpr reached)

/-- Nothing is linked back to a type. -/
theorem dependsOn_type_iff {node : Node} {type : TypeId} (held : graph.Holds type.item) :
    graph.dependsOn node (.item type.item) = true ↔ graph.Reaches node (.item type.item) := by
  have present : .item type.item ∈ graph.nodes := mem_nodes_iff.mpr held
  rw [dependsOn_iff graph node present]
  constructor
  · rintro ⟨reached, path, rfl | linked⟩
    · exact path
    · cases linked with
      | owner _ owned => exact absurd owned (Owner.item?_ne_type _ _)
  · intro path
    exact ⟨_, path, Or.inl rfl⟩

/-! ### The comparison -/

/-- Live types compared with the types that a node depends on. -/
structure LiveAgrees (graph : Graph) (live : LiveTypes) (node : Node) (functions : List Function) :
    Prop where
  /-- Types of the graph only are live. -/
  held : ∀ type ∈ live.order, graph.Holds type.item
  /-- The node depends on the live types and on what the resources of methods and constructors reach. -/
  dependsOn_iff : ∀ type : TypeId, graph.Holds type.item →
    (graph.dependsOn node (.item type.item) = true
      ↔ type ∈ live.order ∨ ∃ function ∈ functions, ∃ resource, function.boundResource? = some resource
        ∧ graph.dependsOn (.item resource.item) (.item type.item) = true)
  /-- The live types are the types that the node depends on exactly if these resources are live. -/
  same_iff : (∀ type : TypeId, graph.Holds type.item →
      (type ∈ live.order ↔ graph.dependsOn node (.item type.item) = true))
    ↔ ∀ function ∈ functions, ∀ resource, function.boundResource? = some resource →
      resource ∈ live.order

/-- What a node reaches through some imports and exports and what they make live. -/
theorem liveAgrees (closed : graph.IsClosed) {node : Node} (present : graph.HasNode node)
    {items : List WorldItem}
    (reaches : ∀ type : TypeId, graph.Reaches node (.item type.item)
      ↔ ∃ item ∈ items, ∃ root ∈ graph.itemMentions item, Search.Reaches graph.directIds root type) :
    graph.LiveAgrees (items.foldl (LiveTypes.addItem graph) {}) node
      (items.flatMap graph.itemFunctions) := by
  have live {type : TypeId} (isLive : type ∈ (items.foldl (LiveTypes.addItem graph) {}).order) :
      graph.Reaches node (.item type.item) := by
    obtain ⟨item, listed, root, needed, path⟩ := mem_order_iff.mp isLive
    exact (reaches type).mpr ⟨item, listed, root, mem_itemMentions_iff.mpr (Or.inl needed), path⟩
  have held {type : TypeId} (reached : graph.Reaches node (.item type.item)) :
      graph.Holds type.item := closed.hasNode_of_reaches present reached
  have bound {function : Function} (isFunction : function ∈ items.flatMap graph.itemFunctions)
      {resource : TypeId} (isBound : function.boundResource? = some resource) :
      graph.Reaches node (.item resource.item) := by
    obtain ⟨item, listed, member⟩ := List.mem_flatMap.mp isFunction
    exact (reaches resource).mpr
      ⟨item, listed, resource, mem_itemMentions_iff.mpr (Or.inr ⟨function, member, isBound⟩), .refl⟩
  have depends (type : TypeId) (inside : graph.Holds type.item) :
      graph.dependsOn node (.item type.item) = true
        ↔ type ∈ (items.foldl (LiveTypes.addItem graph) {}).order
          ∨ ∃ function ∈ items.flatMap graph.itemFunctions, ∃ resource,
            function.boundResource? = some resource
              ∧ graph.dependsOn (.item resource.item) (.item type.item) = true := by
    simp only [dependsOn_type_iff inside]
    constructor
    · intro reached
      obtain ⟨item, listed, root, mentioned, path⟩ := (reaches type).mp reached
      rcases mem_itemMentions_iff.mp mentioned with needed | ⟨function, member, isBound⟩
      · exact Or.inl (mem_order_iff.mpr ⟨item, listed, root, needed, path⟩)
      · exact Or.inr ⟨function, List.mem_flatMap.mpr ⟨item, listed, member⟩, root, isBound,
          reaches_type_iff.mpr ⟨type, rfl, path⟩⟩
    · rintro (isLive | ⟨function, isFunction, resource, isBound, path⟩)
      · exact live isLive
      · exact (bound isFunction isBound).trans path
  refine ⟨fun type isLive => held (live isLive), depends, ?_, ?_⟩
  · intro same function isFunction resource isBound
    have reached := bound isFunction isBound
    exact (same resource (held reached)).mpr ((dependsOn_type_iff (held reached)).mpr reached)
  · intro allLive type inside
    rw [depends type inside]
    refine ⟨Or.inl, ?_⟩
    rintro (isLive | ⟨function, isFunction, resource, isBound, reached⟩)
    · exact isLive
    · obtain ⟨item, listed, root, needed, before⟩ :=
        mem_order_iff.mp (allLive function isFunction resource isBound)
      obtain ⟨last, same, path⟩ := reaches_type_iff.mp ((dependsOn_type_iff inside).mp reached)
      cases Id.item_injective (Node.item.inj same)
      exact mem_order_iff.mpr ⟨item, listed, root, needed, before.trans path⟩

/-- **Live types and dependencies agree, up to what only the resources of methods and constructors
reach**: so it is for every interface, and for every world with all its imports and exports. -/
theorem liveTypes_agree (isRead : graph.IsRead) :
    (∀ id interface, graph.interface? id = some interface →
      graph.LiveAgrees (LiveTypes.addInterface graph {} id) (.item id.item) interface.functions.values)
    ∧ ∀ id world, graph.world? id = some world →
      graph.LiveAgrees (world.items.foldl (LiveTypes.addItem graph) {}) (.item id.item)
        (world.items.flatMap graph.itemFunctions) := by
  have closed := (wellLinked_of_isRead isRead).closed
  constructor
  · intro id interface found
    have present : graph.HasNode (.item id.item) := (graph.holds_iff_entity? _).mpr ⟨_, found⟩
    have functions : [WorldItem.interface id .unknown].flatMap graph.itemFunctions
        = interface.functions.values := by
      simp [itemFunctions, found]
    have same : LiveTypes.addInterface graph {} id
        = [WorldItem.interface id .unknown].foldl (LiveTypes.addItem graph) {} := rfl
    rw [← functions, same]
    refine liveAgrees closed present fun type => ?_
    simp only [List.mem_singleton, exists_eq_left]
    exact reaches_interface_iff
  · intro id world found
    have present : graph.HasNode (.item id.item) := (graph.holds_iff_entity? _).mpr ⟨_, found⟩
    exact liveAgrees closed present fun type => reaches_world_iff found

end

/-- The method of the sample mentions its resource, so nothing is missing among the live types. -/
theorem liveTypes_agree_method :
    Sample.graph.IsRead
      ∧ Sample.graph.LiveAgrees (LiveTypes.addInterface Sample.graph {} ⟨0⟩) (.item ⟨.interface, 0⟩)
        [Sample.read]
      ∧ ∀ type : TypeId, Sample.graph.Holds type.item →
        (type ∈ (LiveTypes.addInterface Sample.graph {} ⟨0⟩).order
          ↔ Sample.graph.dependsOn (.item ⟨.interface, 0⟩) (.item type.item) = true) := by
  have isRead : Sample.graph.IsRead := ⟨_, Sample.accepted⟩
  have agrees : Sample.graph.LiveAgrees (LiveTypes.addInterface Sample.graph {} ⟨0⟩)
      (.item ⟨.interface, 0⟩) [Sample.read] := (liveTypes_agree isRead).1 ⟨0⟩ _ rfl
  refine ⟨isRead, agrees, agrees.same_iff.mpr ?_⟩
  intro function isFunction resource isBound
  cases List.mem_singleton.mp isFunction
  cases isBound
  decide +kernel

namespace Unmentioned

/-- The lines of a document with a method that has no parameters. Its resource is in no list of types. -/
def lines : List String := [
  "\x7b\"worlds\":[\x7b\"name\":\"w\",\"package\":0,",
  "\"imports\":\x7b\"interface-0\":\x7b\"interface\":0\x7d\x7d\x7d],",
  "\"interfaces\":[\x7b\"name\":\"i\",\"package\":0,\"functions\":\x7b\"[method]r.f\":\x7b",
  "\"name\":\"[method]r.f\",\"kind\":\x7b\"method\":0\x7d\x7d\x7d\x7d],",
  "\"types\":[\x7b\"name\":\"r\",\"kind\":\"resource\",\"owner\":\x7b\"interface\":0\x7d\x7d],",
  "\"packages\":[\x7b\"name\":\"a:b\",\"interfaces\":\x7b\"i\":0\x7d,\"worlds\":\x7b\"w\":0\x7d\x7d]\x7d"]

/-- The world that imports the interface. -/
def world : World where
  name := "w"
  imports := .ofList [(.interface ⟨0⟩, .interface ⟨0⟩ .unknown)]
  package := some ⟨0⟩

/-- The graph that the document describes. -/
def graph : Graph where
  worlds := #[world]
  interfaces := #[
    { name := some "i", package := some ⟨0⟩
      functions := .ofList [("[method]r.f",
        { name := "[method]r.f", kind := .method ⟨0⟩, params := [], results := .named [] })] }]
  types := #[{ name := some "r", kind := .resource, owner := .interface ⟨0⟩ }]
  packages := #[
    { name := { ns := "a", package := "b" }
      interfaces := .ofList [("i", ⟨0⟩)], worlds := .ofList [("w", ⟨0⟩)] }]
  packageNames := .ofList [({ ns := "a", package := "b" }, ⟨0⟩)]

theorem accepted : ofText ("\n".intercalate lines) = .ok graph := by
  rw [ofText_intercalate]
  decide +kernel

end Unmentioned

/-- **Not everything that an interface or world depends on is live**: it depends on the resource of a
method, which the signature of the method does not mention. -/
theorem exists_dependency_not_live :
    Unmentioned.graph.IsRead
      ∧ Unmentioned.graph.dependsOn (.item ⟨.interface, 0⟩) (.item ⟨.type, 0⟩) = true
      ∧ (LiveTypes.addInterface Unmentioned.graph {} ⟨0⟩).order = []
      ∧ Unmentioned.graph.world? ⟨0⟩ = some Unmentioned.world
      ∧ Unmentioned.graph.dependsOn (.item ⟨.world, 0⟩) (.item ⟨.type, 0⟩) = true
      ∧ (Unmentioned.world.items.foldl (LiveTypes.addItem Unmentioned.graph) {}).order = [] :=
  ⟨⟨_, Unmentioned.accepted⟩, by decide +kernel, by decide +kernel, rfl, by decide +kernel,
    by decide +kernel⟩

end Graph

end WitGraph
