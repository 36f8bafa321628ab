/-
**What is live, and in which order.**

Types, interfaces, imports and exports may be added to live types one after another in any order
(`LiveTypes.addEach`). `Graph.Needs` says which definitions each of them needs.

* `addEach_isClosure`: at any time the live types are exactly those that the definitions needed so far
  reach, each listed once, and no search from one time to the next goes on forever;
* `addEach_isOrdered`: a live type is listed after everything that it refers to, except for what refers
  back to it, and adding more moves nothing.

Both hold whatever circles there are among the types.
-/

import WitGraph.Proofs.Document.RoundTrip
import WitGraph.Proofs.Document.WellLinked
import WitGraph.Proofs.Grounded
import WitGraph.Proofs.Worklist

namespace WitGraph

/-! ### What is added -/

/-- A function needs the definitions that its parameters and results use, and a static function needs its
resource. -/
inductive Function.Needs (function : Function) (id : TypeId) : Prop
  | param (listed : .defined id ∈ function.params.map Param.type) : Needs function id
  | result (listed : .defined id ∈ function.results.types) : Needs function id
  | resource (isStatic : function.kind = .static id) : Needs function id

theorem Function.mem_signatureIds_iff {function : Function} {id : TypeId} :
    id ∈ function.signatureIds ↔ function.Needs id := by
  have static : id ∈ function.staticResource?.toList ↔ function.kind = .static id := by
    unfold staticResource?
    cases function.kind <;> simp [eq_comm]
  rw [signatureIds, List.mem_append, static, TypeRef.mem_filterMap_id?, types, List.mem_append]
  constructor
  · rintro (isStatic | isParam | isResult)
    · exact .resource isStatic
    · exact .param isParam
    · exact .result isResult
  · rintro (isParam | isResult | isStatic)
    · exact Or.inr (Or.inl isParam)
    · exact Or.inr (Or.inr isResult)
    · exact Or.inl isStatic

namespace LiveTypes

/-- What can be added to live types. -/
inductive Root where
  | type (id : TypeId)
  | interface (id : InterfaceId)
  | item (item : WorldItem)

/-- The live types after a root has been added. -/
def add (graph : Graph) (live : LiveTypes) : Root → LiveTypes
  | .type id => live.addType graph id
  | .interface id => live.addInterface graph id
  | .item item => live.addItem graph item

/-- The live types after some roots have been added one after another. -/
def addEach (graph : Graph) (live : LiveTypes) (roots : List Root) : LiveTypes :=
  roots.foldl (add graph) live

end LiveTypes

namespace Graph

open LiveTypes (Root)

/-- A root needs the definition. -/
inductive Needs (graph : Graph) : Root → TypeId → Prop
  | type (id : TypeId) : Needs graph (.type id) id
  | interfaceType {id : InterfaceId} {interface : Interface} {type : TypeId}
    (found : graph.interface? id = some interface) (listed : type ∈ interface.types.values) :
    Needs graph (.interface id) type
  | interfaceFunction {id : InterfaceId} {interface : Interface} {function : Function} {type : TypeId}
    (found : graph.interface? id = some interface) (listed : function ∈ interface.functions.values)
    (needed : function.Needs type) : Needs graph (.interface id) type
  | interfaceItem {id : InterfaceId} {stability : Stability} {type : TypeId}
    (needed : Needs graph (.interface id) type) : Needs graph (.item (.interface id stability)) type
  | functionItem {function : Function} {type : TypeId} (needed : function.Needs type) :
    Needs graph (.item (.function function)) type
  | typeItem (id : TypeId) : Needs graph (.item (.type id)) id

/-- The definitions that a root needs, in the order in which they are added. -/
def rootTypeIds (graph : Graph) : Root → List TypeId
  | .type id => [id]
  | .interface id => graph.interfaceTypeIds id
  | .item item => graph.itemTypeIds item

variable {graph : Graph}

theorem mem_interfaceTypeIds_iff {id : InterfaceId} {type : TypeId} :
    type ∈ graph.interfaceTypeIds id ↔ graph.Needs (.interface id) type := by
  unfold interfaceTypeIds
  constructor
  · intro member
    split at member
    · cases member
    · rename_i interface found
      rcases List.mem_append.mp member with isType | inFunctions
      · exact .interfaceType found isType
      · obtain ⟨function, listed, needed⟩ := List.mem_flatMap.mp inFunctions
        exact .interfaceFunction found listed (Function.mem_signatureIds_iff.mp needed)
  · intro needs
    cases needs with
    | interfaceType found listed =>
      rw [found]
      exact List.mem_append_left _ listed
    | interfaceFunction found listed needed =>
      rw [found]
      exact List.mem_append_right _
        (List.mem_flatMap.mpr ⟨_, listed, Function.mem_signatureIds_iff.mpr needed⟩)

theorem mem_rootTypeIds_iff {root : Root} {type : TypeId} :
    type ∈ graph.rootTypeIds root ↔ graph.Needs root type := by
  cases root with
  | type id =>
    refine List.mem_singleton.trans ⟨?_, fun needs => by cases needs; rfl⟩
    rintro rfl
    exact .type _
  | interface id => exact mem_interfaceTypeIds_iff
  | item item =>
    cases item with
    | interface id stability =>
      refine mem_interfaceTypeIds_iff.trans ⟨.interfaceItem, fun needs => ?_⟩
      cases needs with
      | interfaceItem needed => exact needed
    | function function =>
      refine Function.mem_signatureIds_iff.trans ⟨.functionItem, fun needs => ?_⟩
      cases needs with
      | functionItem needed => exact needed
    | type id =>
      refine List.mem_singleton.trans ⟨?_, fun needs => by cases needs; rfl⟩
      rintro rfl
      exact .typeItem _

end Graph

namespace LiveTypes

open Search (Worklist)

variable {graph : Graph}

theorem add_eq_addAll (live : LiveTypes) (root : Root) :
    live.add graph root = live.addAll graph (graph.rootTypeIds root) := by
  cases root <;> rfl

/-- Adding roots one after another adds all that they need from left to right. -/
theorem addEach_eq_addAll (live : LiveTypes) (roots : List Root) :
    live.addEach graph roots = live.addAll graph (roots.flatMap graph.rootTypeIds) := by
  induction roots generalizing live with
  | nil => rfl
  | cons root rest ih =>
    have step : live.addEach graph (root :: rest) = (live.add graph root).addEach graph rest := rfl
    rw [step, ih, add_eq_addAll, List.flatMap_cons]
    simp only [addAll, Search.visitAll, List.foldl_append]

theorem addEach_append (live : LiveTypes) (roots more : List Root) :
    live.addEach graph (roots ++ more) = (live.addEach graph roots).addEach graph more :=
  List.foldl_append ..

/-- The depth to which live types are searched is always enough. -/
theorem unentered_lt (graph : Graph) (progress : Progress TypeId) :
    progress.unentered (graph.ids .type) < graph.types.size + 1 :=
  Nat.lt_of_le_of_lt List.countP_le_length graph.length_ids_lt

theorem explores_addAll (live : LiveTypes) (ids : List TypeId) :
    Search.Explores graph.directIds ids live.progress (live.addAll graph ids).progress :=
  Search.explores_visitAll (fun _ => graph.mem_ids_of_directIds) _ _ _ (unentered_lt graph _)

/-! ### What is live -/

/-- The live types are what the definitions that the roots need reach. -/
structure IsClosure (graph : Graph) (roots : List Root) (live : LiveTypes) : Prop where
  /-- No type is listed twice. -/
  once : live.order.Nodup
  mem_iff : ∀ id, id ∈ live.order
    ↔ ∃ root ∈ roots, ∃ needed, graph.Needs root needed ∧ Search.Reaches graph.directIds needed id
  size_eq : live.size = live.order.length
  contains_iff : ∀ id, live.contains id = true ↔ id ∈ live.order
  /-- What a live type refers to is live. -/
  closed : ∀ id ∈ live.order, ∀ other ∈ graph.directIds id, other ∈ live.order
  /-- Only types of the graph are live if the roots need no others. -/
  held : (∀ root ∈ roots, ∀ id, graph.Needs root id → graph.Holds id.item) →
    ∀ id ∈ live.order, graph.Holds id.item

/-- Adding to nothing is a search that starts afresh. -/
theorem postordered_addEach (graph : Graph) (roots : List Root) :
    let found := (addEach graph {} roots).progress.finished
    found.Nodup
      ∧ (∀ id, id ∈ found
        ↔ ∃ needed ∈ roots.flatMap graph.rootTypeIds, Search.Reaches graph.directIds needed id)
      ∧ Search.Postordered graph.directIds (fun _ => False) found := by
  rw [addEach_eq_addAll]
  exact Search.postordered_visitAll (fun _ => graph.mem_ids_of_directIds) graph.length_ids_lt _

theorem mem_order_addEach_iff {roots : List Root} {id : TypeId} :
    id ∈ (addEach graph {} roots).order
      ↔ ∃ root ∈ roots, ∃ needed, graph.Needs root needed ∧ Search.Reaches graph.directIds needed id := by
  refine List.mem_reverse.trans (((postordered_addEach graph roots).2.1 id).trans ?_)
  simp only [List.mem_flatMap, Graph.mem_rootTypeIds_iff]
  constructor
  · rintro ⟨needed, ⟨root, listed, needs⟩, path⟩
    exact ⟨root, listed, needed, needs, path⟩
  · rintro ⟨root, listed, needed, needs, path⟩
    exact ⟨needed, ⟨root, listed, needs⟩, path⟩

theorem contains_addEach_iff {roots : List Root} {id : TypeId} :
    (addEach graph {} roots).contains id = true ↔ id ∈ (addEach graph {} roots).order := by
  have entered := Search.hasEntered_visitAll_iff (fun _ => graph.mem_ids_of_directIds)
    graph.length_ids_lt (roots.flatMap graph.rootTypeIds) id
  have finished := (postordered_addEach graph roots).2.1 id
  rw [addEach_eq_addAll] at finished ⊢
  exact entered.trans (finished.symm.trans List.mem_reverse.symm)

theorem isClosure_addEach (closed : graph.IsClosed) (roots : List Root) :
    (addEach graph {} roots).IsClosure graph roots where
  once := List.nodup_reverse.mpr (postordered_addEach graph roots).1
  mem_iff _ := mem_order_addEach_iff
  size_eq := List.length_reverse.symm
  contains_iff _ := contains_addEach_iff
  closed id isLive other follows := by
    obtain ⟨root, listed, needed, needs, path⟩ := mem_order_addEach_iff.mp isLive
    exact mem_order_addEach_iff.mpr ⟨root, listed, needed, needs, path.tail follows⟩
  held each id isLive := by
    obtain ⟨root, listed, needed, needs, path⟩ := mem_order_addEach_iff.mp isLive
    cases path with
    | refl => exact each root listed _ needs
    | tail _ last => exact closed.holds_directId last

/-- The search from one time to the next ends. -/
theorem leadsTo_add (live : LiveTypes) (root : Root) :
    Worklist.LeadsTo graph.directIds ⟨live.progress, (graph.rootTypeIds root).map .visit⟩
      ⟨(live.add graph root).progress, []⟩ := by
  have ends := Worklist.leadsTo_visitAll (fun _ => graph.mem_ids_of_directIds)
    (graph.types.size + 1) live.progress (graph.rootTypeIds root) [] (unentered_lt graph _)
  rw [List.append_nil] at ends
  rwa [add_eq_addAll]

/-- **The live types are exactly what has been needed and what that reaches**, after each of the roots,
and after each the search for the next one ends. -/
theorem addEach_isClosure (isRead : graph.IsRead) (roots : List Root) :
    (addEach graph {} roots).IsClosure graph roots
      ∧ ∀ count, (addEach graph {} (roots.take count)).IsClosure graph (roots.take count)
        ∧ ∀ root ∈ roots[count]?,
          Worklist.LeadsTo graph.directIds
            ⟨(addEach graph {} (roots.take count)).progress, (graph.rootTypeIds root).map .visit⟩
            ⟨(addEach graph {} (roots.take (count + 1))).progress, []⟩ := by
  have closed := (Graph.wellLinked_of_isRead isRead).closed
  refine ⟨isClosure_addEach closed roots, fun count =>
    ⟨isClosure_addEach closed _, fun root isNext => ?_⟩⟩
  rw [List.take_add_one, isNext, Option.toList_some, addEach_append]
  exact leadsTo_add _ root

/-- The list of the sample that refers to itself through an option is live once, and so is the resource
that only a handle refers to. -/
theorem addEach_isClosure_circle :
    Graph.Sample.graph.IsRead
      ∧ (addEach Graph.Sample.graph {} [.type ⟨1⟩, .interface ⟨0⟩]).IsClosure Graph.Sample.graph
        [.type ⟨1⟩, .interface ⟨0⟩]
      ∧ (addEach Graph.Sample.graph {} [.type ⟨1⟩]).IsClosure Graph.Sample.graph [.type ⟨1⟩]
      ∧ (addEach Graph.Sample.graph {} [.type ⟨1⟩]).order = [⟨0⟩, ⟨1⟩]
      ∧ (addEach Graph.Sample.graph {} [.type ⟨1⟩, .interface ⟨0⟩]).order = [⟨0⟩, ⟨1⟩, ⟨2⟩, ⟨3⟩] := by
  have isRead : Graph.Sample.graph.IsRead := ⟨_, Graph.Sample.accepted⟩
  obtain ⟨whole, each⟩ := addEach_isClosure isRead [.type ⟨1⟩, .interface ⟨0⟩]
  exact ⟨isRead, whole, (each 1).1, by decide +kernel, by decide +kernel⟩

/-! ### The order of live types -/

/-- A live type comes after everything that it refers to and that does not refer back to it. -/
structure IsOrdered (graph : Graph) (live : LiveTypes) : Prop where
  before : ∀ id ∈ live.order, ∀ other ∈ graph.directIds id,
    ¬ Relation.TransGen (fun id other => other ∈ graph.directIds id) other id →
      other ∈ live.order ∧ live.order.idxOf other < live.order.idxOf id
  /-- Without circles, this is all that it refers to. -/
  acyclic : (∀ id, ¬ graph.OnCircle id) → ∀ id ∈ live.order, ∀ other ∈ graph.directIds id,
    other ∈ live.order ∧ live.order.idxOf other < live.order.idxOf id

/-- What a live type refers to is listed before it, unless it leads back. -/
theorem idxOf_lt_of_not_reaches {roots : List Root} {id other : TypeId}
    (isLive : id ∈ (addEach graph {} roots).order) (follows : other ∈ graph.directIds id)
    (apart : ¬ Search.Reaches graph.directIds other id) :
    other ∈ (addEach graph {} roots).order
      ∧ (addEach graph {} roots).order.idxOf other < (addEach graph {} roots).order.idxOf id := by
  obtain ⟨once, -, ordered⟩ := postordered_addEach graph roots
  have onceListed := List.nodup_reverse.mpr once
  obtain ⟨later, earlier, split⟩ := List.append_of_mem (List.mem_reverse.mp isLive)
  have listed : (addEach graph {} roots).order = earlier.reverse ++ id :: later.reverse := by
    rw [order, split, List.reverse_append, List.reverse_cons, List.append_assoc,
      List.singleton_append]
  rw [split] at ordered
  have isEarlier := List.mem_reverse.mpr (ordered.mem_of_not_reaches follows apart)
  rw [listed]
  refine ⟨List.mem_append_left _ isEarlier, Search.idxOf_lt_of_mem ?_ isEarlier⟩
  rwa [← listed]

theorem isOrdered_addEach (graph : Graph) (roots : List Root) :
    (addEach graph {} roots).IsOrdered graph := by
  have before (id : TypeId) (isLive : id ∈ (addEach graph {} roots).order) (other : TypeId)
      (follows : other ∈ graph.directIds id)
      (apart : ¬ Relation.TransGen (fun id other => other ∈ graph.directIds id) other id) :=
    idxOf_lt_of_not_reaches isLive follows fun back => apart <| by
      rcases Relation.reflTransGen_iff_eq_or_transGen.mp back with rfl | path
      · exact .single follows
      · exact path
  refine ⟨before, fun acyclic id isLive other follows => before id isLive other follows fun back => ?_⟩
  exact acyclic id (.head follows back)

/-- More roots leave the order as it is and go on with it. -/
theorem order_prefix_addEach (live : LiveTypes) (more : List Root) :
    live.order <+: (addEach graph live more).order := by
  obtain ⟨found, record, -⟩ := (explores_addAll live (more.flatMap graph.rootTypeIds)).finished
  refine ⟨found.reverse, ?_⟩
  rw [addEach_eq_addAll, order, order, record, List.reverse_append]

/-- **Live types are listed after what they refer to**, circles apart, and stay where they are when more
is added. -/
theorem addEach_isOrdered (graph : Graph) (roots more : List Root) :
    (addEach graph {} roots).IsOrdered graph
      ∧ (addEach graph {} roots).order <+: (addEach graph {} (roots ++ more)).order := by
  refine ⟨isOrdered_addEach graph roots, ?_⟩
  rw [addEach_append]
  exact order_prefix_addEach _ more

end LiveTypes

end WitGraph
