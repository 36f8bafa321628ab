/-
**Traits are questions about dependencies.**

The traits of a type are computed by a recursion of their own, and its flat form by another one. What a
grounded type has is the same as what is found among the types that it depends on (`TraitsAgree`): a
resource if one of them is one, a borrowed handle if one of them is one, and a pointer if one of them is
a list or mentions a string.

Slots of a variant may lose a pointer but never make one (`pointer_mem_joinAll`), so a flat form has a
pointer only if the type has one.
-/

import WitGraph.Proofs.Abi.Signature
import WitGraph.Proofs.Document.Consistent
import WitGraph.Proofs.Liveness

namespace WitGraph

/-! ### Slots with pointers -/

/-- Only pointers join to a pointer. -/
theorem CoreType.join_eq_pointer_iff {first second : CoreType} :
    first.join second = .pointer ↔ first = .pointer ∧ second = .pointer := by
  cases first <;> cases second <;> decide

theorem pointer_mem_joinSlots {first second : List CoreType}
    (member : .pointer ∈ joinSlots first second) : .pointer ∈ first ∨ .pointer ∈ second := by
  induction first generalizing second with
  | nil => exact Or.inr member
  | cons entry rest ih =>
    cases second with
    | nil => exact Or.inl member
    | cons other others =>
      rcases List.mem_cons.mp member with joined | inRest
      · obtain ⟨rfl, -⟩ := CoreType.join_eq_pointer_iff.mp joined.symm
        exact Or.inl (List.mem_cons_self ..)
      · exact (ih inRest).imp (List.mem_cons_of_mem _) (List.mem_cons_of_mem _)

/-- Slots that are shared have a pointer only if one of the flat forms has one. -/
theorem pointer_mem_joinAll {flats : List (List CoreType)} (member : .pointer ∈ joinAll flats) :
    ∃ flat ∈ flats, .pointer ∈ flat := by
  suffices ∀ start, .pointer ∈ flats.foldl joinSlots start →
      .pointer ∈ start ∨ ∃ flat ∈ flats, .pointer ∈ flat by
    exact (this [] member).resolve_left List.not_mem_nil
  clear member
  induction flats with
  | nil => exact fun start => Or.inl
  | cons first rest ih =>
    intro start member
    rcases ih (joinSlots start first) member with joined | ⟨flat, isFlat, inFlat⟩
    · rcases pointer_mem_joinSlots joined with inStart | inFirst
      · exact Or.inl inStart
      · exact Or.inr ⟨first, List.mem_cons_self .., inFirst⟩
    · exact Or.inr ⟨flat, List.mem_cons_of_mem _ isFlat, inFlat⟩

/-- Only a string is pushed with a pointer among the primitive types. -/
theorem FlatForm.eq_string_of_pushPrimitive {type : Primitive}
    (member : .pointer ∈ pushPrimitive #[] type) : type = .string := by
  cases type <;> first | rfl | simp [pushPrimitive] at member

/-! ### Kinds with pointers -/

namespace Kind

variable {push : PushRef} {kind : TypeKind} {pushed : FlatForm}

/-- The flat form of the type has a pointer. -/
def PushesPointer (push : PushRef) (type : TypeRef) : Prop :=
  ∃ flat, push.alone type = .ok flat ∧ .pointer ∈ flat

theorem pushesPointer_of_foldlM {α : Type} {step : FlatForm → α → Except AbiFault FlatForm}
    {list : List α} (each : ∀ element ∈ list, Appends (step · element))
    (isPushed : list.foldlM step #[] = .ok pushed) (member : .pointer ∈ pushed) :
    ∃ element ∈ list, ∃ flat, (step #[] element).map Array.toList = .ok flat ∧ .pointer ∈ flat := by
  rw [foldlM_of_appends each, Success.map_eq_ok_iff] at isPushed
  obtain ⟨flats, areFlats, rfl⟩ := isPushed
  have inFlats : .pointer ∈ flats.flatten := by simpa using member
  obtain ⟨flat, isFlat, inFlat⟩ := List.mem_flatten.mp inFlats
  obtain ⟨element, isElement, pushesFlat⟩ :=
    Success.exists_of_mem_right (Success.mapM_eq_ok_iff.mp areFlats) isFlat
  exact ⟨element, isElement, flat, pushesFlat, inFlat⟩

theorem pushesPointer_of_pushCases {cases : List (Option TypeRef)}
    (isPushed : pushCases push #[] cases = .ok pushed) (member : .pointer ∈ pushed) :
    ∃ type, some type ∈ cases ∧ PushesPointer push type := by
  rw [pushCases_eq, Success.map_eq_ok_iff] at isPushed
  obtain ⟨flats, areFlats, rfl⟩ := isPushed
  have isEntry : .pointer ∈ CoreType.ofInt (.ofCases cases.length) :: joinAll flats := by
    simpa using member
  rcases List.mem_cons.mp isEntry with isTag | shared
  · cases tag : UnsignedInt.ofCases cases.length <;> simp [tag, CoreType.ofInt] at isTag
  · obtain ⟨flat, isFlat, inFlat⟩ := pointer_mem_joinAll shared
    obtain ⟨type, isPayload, pushesFlat⟩ :=
      Success.exists_of_mem_right (Success.mapM_eq_ok_iff.mp areFlats) isFlat
    obtain ⟨_, listed, rfl⟩ := List.mem_filterMap.mp isPayload
    exact ⟨type, listed, flat, pushesFlat, inFlat⟩

/-- A kind is pushed with a pointer only if it is a list or a pointer, or mentions a type that is pushed
with one. -/
theorem pushesPointer_of_pushFlat (each : ∀ type ∈ kind.mentions, Appends (push · type))
    (isPushed : kind.pushFlat push #[] = .ok pushed) (member : .pointer ∈ pushed) :
    (∃ element, kind = .list element) ∨ (∃ target, kind = .pointer target)
      ∨ ∃ type ∈ kind.mentions, PushesPointer push type := by
  cases kind with
  | list element => exact Or.inl ⟨element, rfl⟩
  | pointer target => exact Or.inr (Or.inl ⟨target, rfl⟩)
  | synonym target =>
    refine Or.inr (Or.inr ⟨target, List.mem_singleton_self target, pushed.toList, ?_, member.val⟩)
    exact Success.map_eq_ok_iff.mpr ⟨pushed, isPushed, rfl⟩
  | record fields =>
    obtain ⟨field, isField, has⟩ := pushesPointer_of_foldlM
      (fun field member => each field.type (List.mem_map_of_mem member)) isPushed member
    exact Or.inr (Or.inr ⟨field.type, List.mem_map_of_mem isField, has⟩)
  | tuple types => exact Or.inr (Or.inr (pushesPointer_of_foldlM each isPushed member))
  | variant cases =>
    obtain ⟨type, isType, has⟩ := pushesPointer_of_pushCases isPushed member
    obtain ⟨case, isCase, same⟩ := List.mem_map.mp isType
    exact Or.inr (Or.inr ⟨type, List.mem_filterMap.mpr ⟨case, isCase, same⟩, has⟩)
  | enum cases =>
    obtain ⟨type, isType, -⟩ := pushesPointer_of_pushCases isPushed member
    simp at isType
  | option payload =>
    obtain ⟨type, isType, has⟩ := pushesPointer_of_pushCases isPushed member
    exact Or.inr (Or.inr ⟨type, by simpa [mentions] using isType, has⟩)
  | result ok err =>
    obtain ⟨type, isType, has⟩ := pushesPointer_of_pushCases isPushed member
    exact Or.inr (Or.inr ⟨type, by simpa [mentions, eq_comm] using isType, has⟩)
  | unknown => cases isPushed
  | flags labels =>
    obtain rfl := Except.ok.inj isPushed
    simp at member
  | _ =>
    obtain rfl := Except.ok.inj isPushed
    simp at member

end Kind

namespace Graph

variable {graph : Graph} {type : TypeRef} {id : TypeId} {kind : TypeKind}

/-! ### Dependencies of types -/

/-- The type is the definition or depends on it. -/
def Involves (graph : Graph) (type : TypeRef) (id : TypeId) : Prop :=
  type = .defined id
    ∨ ∃ start : TypeId, type = .defined start ∧ graph.dependsOn (.item start.item) (.item id.item) = true

theorem not_involves_primitive {primitive : Primitive} : ¬ graph.Involves (.primitive primitive) id := by
  rintro (same | ⟨start, same, -⟩) <;> cases same

theorem involves_defined_iff {start : TypeId} (held : graph.Holds id.item) :
    graph.Involves (.defined start) id ↔ Search.Reaches graph.directIds start id := by
  constructor
  · rintro (same | ⟨_, same, depends⟩)
    · cases same
      exact .refl
    · cases same
      obtain ⟨last, same, path⟩ := reaches_type_iff.mp ((dependsOn_type_iff held).mp depends)
      cases Id.item_injective (Node.item.inj same)
      exact path
  · intro path
    exact Or.inr ⟨start, rfl, (dependsOn_type_iff held).mpr (reaches_type_iff.mpr ⟨id, rfl, path⟩)⟩

/-! ### Traits -/

section Recursion

variable {primitives : Primitive → Bool} {kinds : TypeKind → Bool}

/-- The kind is one of the `kinds` or mentions one of the `primitives`. -/
def ShowsTrait (primitives : Primitive → Bool) (kinds : TypeKind → Bool) (kind : TypeKind) : Prop :=
  kinds kind ∨ ∃ type, .primitive type ∈ kind.mentions ∧ primitives type

/-- A grounded definition has a trait if the kind of something that it reaches shows it. -/
theorem IsClosed.mentionsWithin_iff (closed : graph.IsClosed) (held : graph.Holds id.item)
    (grounded : graph.IsGrounded id) :
    graph.mentionsWithin primitives kinds graph.types.size (.defined id)
      ↔ ∃ other kind, Search.Reaches graph.directIds id other ∧ graph.kind? other = some kind
        ∧ ShowsTrait primitives kinds kind := by
  refine closed.grounded_induction
    (motive := fun id => graph.mentionsWithin primitives kinds graph.types.size (.defined id)
      ↔ ∃ other kind, Search.Reaches graph.directIds id other ∧ graph.kind? other = some kind
        ∧ ShowsTrait primitives kinds kind)
    (fun id kind found grounded ih => ?_) held grounded
  rw [closed.mentionsWithin_eq grounded found, Bool.or_eq_true, List.any_eq_true]
  constructor
  · rintro (isKind | ⟨type, member, has⟩)
    · exact ⟨id, kind, .refl, found, Or.inl isKind⟩
    · cases type with
      | primitive type =>
        rw [mentionsWithin_primitive] at has
        exact ⟨id, kind, .refl, found, Or.inr ⟨type, member, has⟩⟩
      | defined other =>
        obtain ⟨last, lastKind, path, rest⟩ := (ih other member).mp has
        exact ⟨last, lastKind, .head (mem_directIds_of_mentions found member) path, rest⟩
  · rintro ⟨last, lastKind, path, foundLast, shows⟩
    rcases Relation.ReflTransGen.cases_head path with rfl | ⟨other, direct, rest⟩
    · cases found.symm.trans foundLast
      refine shows.imp_right ?_
      rintro ⟨type, member, has⟩
      exact ⟨.primitive type, member, by rwa [mentionsWithin_primitive]⟩
    · rw [directIds_of_kind? found] at direct
      have member := Kind.mem_directIds_iff.mp direct
      have hasPart := (ih other member).mpr ⟨last, lastKind, rest, foundLast, shows⟩
      exact Or.inr ⟨.defined other, member, hasPart⟩

/-- **A grounded type has a trait if the kind of something that it involves shows it.** -/
theorem IsClosed.mentionsWithin_iff_involves (closed : graph.IsClosed)
    (held : ∀ id, type = .defined id → graph.Holds id.item) (grounded : graph.IsGroundedType type) :
    graph.mentionsWithin primitives kinds graph.types.size type
      ↔ (∃ primitive, type = .primitive primitive ∧ primitives primitive)
        ∨ ∃ id kind, graph.Involves type id ∧ graph.kind? id = some kind
          ∧ ShowsTrait primitives kinds kind := by
  cases type with
  | primitive type =>
    rw [mentionsWithin_primitive]
    simp [not_involves_primitive]
  | defined id =>
    rw [closed.mentionsWithin_iff (held id rfl) grounded]
    constructor
    · rintro ⟨other, kind, path, found, shows⟩
      exact Or.inr ⟨other, kind, (involves_defined_iff (holds_of_kind? found)).mpr path, found, shows⟩
    · rintro (⟨_, same, -⟩ | ⟨other, kind, involved, found, shows⟩)
      · cases same
      · exact ⟨other, kind, (involves_defined_iff (holds_of_kind? found)).mp involved, found, shows⟩

/-- So it is for kinds alone. -/
theorem IsClosed.mentionsWithin_iff_kind (closed : graph.IsClosed)
    (held : ∀ id, type = .defined id → graph.Holds id.item) (grounded : graph.IsGroundedType type) :
    graph.mentionsWithin (fun _ => false) kinds graph.types.size type
      ↔ ∃ id kind, graph.Involves type id ∧ graph.kind? id = some kind ∧ kinds kind := by
  rw [closed.mentionsWithin_iff_involves held grounded]
  simp [ShowsTrait]

/-- A synonym has a trait if its target has it. -/
theorem IsClosed.mentionsWithin_synonym (closed : graph.IsClosed) (grounded : graph.IsGrounded id)
    {target : TypeRef} (found : graph.kind? id = some (.synonym target))
    (neither : kinds (.synonym target) = false) :
    graph.mentionsWithin primitives kinds graph.types.size (.defined id)
      = graph.mentionsWithin primitives kinds graph.types.size target := by
  rw [closed.mentionsWithin_eq grounded found, neither, Bool.false_or]
  show [target].any _ = _
  rw [List.any_cons, List.any_nil, Bool.or_false]

end Recursion

/-! ### Pointers in flat forms -/

theorem hasPointer_of_flat_primitive {type : Primitive} {flat : List CoreType}
    (isFlat : graph.flat (.primitive type) = .ok flat) (member : .pointer ∈ flat) :
    graph.hasPointer (.primitive type) := by
  rw [← alone_pushType, PushRef.alone, pushType, pushRef_primitive] at isFlat
  obtain rfl := Except.ok.inj isFlat
  obtain rfl := FlatForm.eq_string_of_pushPrimitive (Array.mem_toList_iff.mp member)
  rw [hasPointer, mentionsWithin_primitive]
  rfl

/-- **A flat form with a pointer is that of a type with one.** -/
theorem IsClosed.hasPointer_of_flat (closed : graph.IsClosed)
    (held : ∀ id, type = .defined id → graph.Holds id.item) (grounded : graph.IsGroundedType type)
    {flat : List CoreType} (isFlat : graph.flat type = .ok flat) (member : .pointer ∈ flat) :
    graph.hasPointer type := by
  cases type with
  | primitive type => exact hasPointer_of_flat_primitive isFlat member
  | defined id =>
    refine closed.grounded_induction
      (motive := fun id => ∀ flat, graph.flat (.defined id) = .ok flat → .pointer ∈ flat →
        graph.hasPointer (.defined id))
      (fun id kind found grounded ih flat isFlat member => ?_) (held id rfl) grounded flat isFlat member
    rw [← alone_pushType, PushRef.alone, closed.pushType_eq grounded found, Success.map_eq_ok_iff]
      at isFlat
    obtain ⟨pushed, isPushed, rfl⟩ := isFlat
    rw [hasPointer, closed.mentionsWithin_eq grounded found, Bool.or_eq_true, List.any_eq_true]
    have appends : ∀ type ∈ kind.mentions, Appends (graph.pushType · type) :=
      fun type _ => appends_pushRef _ type
    rcases Kind.pushesPointer_of_pushFlat appends isPushed (Array.mem_toList_iff.mp member) with
      ⟨element, rfl⟩ | ⟨target, rfl⟩ | ⟨type, isPart, inner, isInner, has⟩
    · exact Or.inl rfl
    · exact Or.inl rfl
    · rw [alone_pushType] at isInner
      refine Or.inr ⟨type, isPart, ?_⟩
      cases type with
      | primitive type => exact hasPointer_of_flat_primitive isInner has
      | defined other => exact ih other isPart inner isInner has

/-! ### The comparison -/

/-- The traits of a type compared with what it depends on and with its flat form. -/
structure TraitsAgree (graph : Graph) (type : TypeRef) : Prop where
  resource : graph.hasResource type ↔ ∃ id, graph.Involves type id ∧ graph.kind? id = some .resource
  borrow : graph.hasBorrow type
    ↔ ∃ id resource, graph.Involves type id ∧ graph.kind? id = some (.borrow resource)
  pointer : graph.hasPointer type ↔ type = .primitive .string
    ∨ ∃ id kind, graph.Involves type id ∧ graph.kind? id = some kind
      ∧ (.primitive .string ∈ kind.mentions ∨ ∃ element, kind = .list element)
  /-- A synonym has the traits of its target. -/
  synonym : ∀ id target, type = .defined id → graph.kind? id = some (.synonym target) →
    graph.hasResource type = graph.hasResource target ∧ graph.hasBorrow type = graph.hasBorrow target
      ∧ graph.hasPointer type = graph.hasPointer target
  /-- The type has a flat form, without a pointer unless the type has one. -/
  flat : ∃ flat, graph.flat type = .ok flat ∧ (.pointer ∈ flat → graph.hasPointer type)

theorem IsClosed.hasResource_iff (closed : graph.IsClosed)
    (held : ∀ id, type = .defined id → graph.Holds id.item) (grounded : graph.IsGroundedType type) :
    graph.hasResource type ↔ ∃ id, graph.Involves type id ∧ graph.kind? id = some .resource := by
  rw [hasResource, closed.mentionsWithin_iff_kind held grounded]
  constructor
  · rintro ⟨id, kind, involved, found, isKind⟩
    cases kind <;> first | exact ⟨id, involved, found⟩ | cases isKind
  · rintro ⟨id, involved, found⟩
    exact ⟨id, _, involved, found, rfl⟩

theorem IsClosed.hasBorrow_iff (closed : graph.IsClosed)
    (held : ∀ id, type = .defined id → graph.Holds id.item) (grounded : graph.IsGroundedType type) :
    graph.hasBorrow type
      ↔ ∃ id resource, graph.Involves type id ∧ graph.kind? id = some (.borrow resource) := by
  rw [hasBorrow, closed.mentionsWithin_iff_kind held grounded]
  constructor
  · rintro ⟨id, kind, involved, found, isKind⟩
    cases kind <;> first | exact ⟨id, _, involved, found⟩ | cases isKind
  · rintro ⟨id, resource, involved, found⟩
    exact ⟨id, _, involved, found, rfl⟩

/-- Where there are no raw pointers, pointers come from strings and lists. -/
theorem IsClosed.hasPointer_iff (closed : graph.IsClosed)
    (noPointers : ∀ id target, graph.kind? id ≠ some (.pointer target))
    (held : ∀ id, type = .defined id → graph.Holds id.item) (grounded : graph.IsGroundedType type) :
    graph.hasPointer type ↔ type = .primitive .string
      ∨ ∃ id kind, graph.Involves type id ∧ graph.kind? id = some kind
        ∧ (.primitive .string ∈ kind.mentions ∨ ∃ element, kind = .list element) := by
  rw [hasPointer, closed.mentionsWithin_iff_involves held grounded]
  constructor
  · rintro (⟨_, rfl, isString⟩ | ⟨id, kind, involved, found, isKind | ⟨_, mentioned, isString⟩⟩)
    · exact Or.inl (congrArg TypeRef.primitive (of_decide_eq_true isString))
    · refine Or.inr ⟨id, kind, involved, found, Or.inr ?_⟩
      cases kind <;> first | exact ⟨_, rfl⟩ | exact absurd found (noPointers id _) | cases isKind
    · obtain rfl := of_decide_eq_true isString
      exact Or.inr ⟨id, kind, involved, found, Or.inl mentioned⟩
  · rintro (rfl | ⟨id, kind, involved, found, mentioned | ⟨element, rfl⟩⟩)
    · exact Or.inl ⟨.string, rfl, rfl⟩
    · exact Or.inr ⟨id, kind, involved, found, Or.inr ⟨.string, mentioned, rfl⟩⟩
    · exact Or.inr ⟨id, _, involved, found, Or.inl rfl⟩

/-- **Traits of grounded types are questions about dependencies** in every graph that has been read. -/
theorem traits_agree (isRead : graph.IsRead)
    (held : ∀ id, type = .defined id → graph.Holds id.item) (grounded : graph.IsGroundedType type) :
    (∀ id target, graph.kind? id ≠ some (.pointer target)) ∧ graph.TraitsAgree type := by
  have linked := wellLinked_of_isRead isRead
  have noPointers : ∀ id target, graph.kind? id ≠ some (.pointer target) := by
    intro id target found
    exact (Document.kinds_of_isWritable (isWritable_of_isRead isRead) found).2 target rfl
  refine ⟨noPointers, linked.closed.hasResource_iff held grounded,
    linked.closed.hasBorrow_iff held grounded,
    linked.closed.hasPointer_iff noPointers held grounded, ?_, ?_⟩
  · rintro id target rfl found
    exact ⟨linked.closed.mentionsWithin_synonym grounded found rfl,
      linked.closed.mentionsWithin_synonym grounded found rfl,
      linked.closed.mentionsWithin_synonym grounded found rfl⟩
  · obtain ⟨pushed, isPushed⟩ := linked.closed.exists_pushType linked.known held grounded #[]
    have isFlat : graph.flat type = .ok pushed.toList :=
      Success.bind_return_eq_ok_iff.mpr ⟨pushed, isPushed, rfl⟩
    exact ⟨pushed.toList, isFlat, linked.closed.hasPointer_of_flat held grounded isFlat⟩

/-- A borrowed handle has the resource that it depends on, and no pointer; other types of the graph are
circular. -/
theorem traits_agree_borrowed :
    Sample.graph.IsRead ∧ Sample.graph.Holds ⟨.type, 3⟩ ∧ Sample.graph.IsGrounded ⟨3⟩
      ∧ (∃ id, Sample.graph.Involves (.defined ⟨3⟩) id ∧ Sample.graph.kind? id = some .resource)
      ∧ Sample.graph.hasBorrow (.defined ⟨3⟩) ∧ ¬ Sample.graph.hasPointer (.defined ⟨3⟩)
      ∧ ∃ flat, Sample.graph.flat (.defined ⟨3⟩) = .ok flat ∧ .pointer ∉ flat := by
  have isRead : Sample.graph.IsRead := ⟨_, Sample.accepted⟩
  have held : ∀ id, TypeRef.defined ⟨3⟩ = .defined id → Sample.graph.Holds id.item := by
    rintro _ ⟨⟩
    decide
  obtain ⟨-, agree⟩ := traits_agree isRead held Sample.isGrounded_borrowed
  have hasResource : Sample.graph.hasResource (.defined ⟨3⟩) := by decide
  have notPointer : ¬ Sample.graph.hasPointer (.defined ⟨3⟩) := by decide
  obtain ⟨flat, isFlat, onlyIf⟩ := agree.flat
  exact ⟨isRead, held _ rfl, Sample.isGrounded_borrowed, agree.resource.mp hasResource, by decide,
    notPointer, flat, isFlat, fun member => notPointer (onlyIf member)⟩

end Graph

end WitGraph
