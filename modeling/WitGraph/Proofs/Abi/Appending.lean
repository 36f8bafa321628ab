/-
**Flat forms are appended.**

What a type pushes does not depend on what has been pushed before, and leaves it as it is (`Appends`).
Kinds append if the types that they mention do, for records push their fields one after another and
variants only touch slots behind their tag; so every type appends its flat form, whatever the limit of
the search for it (`appends_pushRef`). The flat forms of several types are therefore those of the types
after one another (`flatAll_eq`).

Types and kinds that lead to no circle, to no unknown kind and to nothing outside the graph have flat forms,
and append them (`flatForms_appended`).
-/

import WitGraph.Proofs.Abi.Grounded
import WitGraph.Proofs.Abi.Slots

namespace WitGraph

/-- What is pushed is the same after any other entries, which stay as they are. -/
def Appends (step : FlatForm → Except AbiFault FlatForm) : Prop :=
  ∀ flat, step flat = ((step #[]).map Array.toList).map fun slots : List CoreType => flat ++ slots

theorem appends_of_eq {step : FlatForm → Except AbiFault FlatForm}
    (pushed : Except AbiFault (List CoreType))
    (same : ∀ flat, step flat = pushed.map fun slots : List CoreType => flat ++ slots) :
    Appends step := by
  intro flat
  have alone : (step #[]).map Array.toList = pushed := by
    rw [same]
    cases pushed <;> simp [Except.map]
  rw [alone, same]

/-- Pushing one after another appends what is pushed by each. -/
theorem foldlM_of_appends {α : Type} {step : FlatForm → α → Except AbiFault FlatForm} {list : List α}
    (each : ∀ element ∈ list, Appends (step · element)) (flat : FlatForm) :
    list.foldlM step flat
      = (list.mapM fun element => (step #[] element).map Array.toList).map
          fun flats : List (List CoreType) => flat ++ flats.flatten := by
  induction list generalizing flat with
  | nil => exact congrArg Except.ok (Array.toList_inj.mp (by simp))
  | cons first rest ih =>
    have others := ih fun element inRest => each element (List.mem_cons_of_mem _ inRest)
    have head : step flat first = ((step #[] first).map Array.toList).map
        fun slots : List CoreType => flat ++ slots := each first (List.mem_cons_self ..) flat
    rw [List.foldlM_cons, List.mapM_cons, head]
    cases (step #[] first).map Array.toList with
    | error fault => rfl
    | ok pushed =>
      refine Eq.trans (others (flat ++ pushed)) ?_
      cases rest.mapM fun element => (step #[] element).map Array.toList with
      | error fault => rfl
      | ok flats => exact congrArg Except.ok (Array.toList_inj.mp (by simp))

theorem appends_foldlM {α : Type} {step : FlatForm → α → Except AbiFault FlatForm} {list : List α}
    (each : ∀ element ∈ list, Appends (step · element)) : Appends (list.foldlM step ·) := by
  refine appends_of_eq
    ((list.mapM fun element => (step #[] element).map Array.toList).map List.flatten) fun flat => ?_
  rw [foldlM_of_appends each]
  cases list.mapM fun element => (step #[] element).map Array.toList <;> rfl

/-! ### Kinds -/

theorem FlatForm.appends_pushPrimitive (type : Primitive) :
    Appends fun flat => .ok (flat.pushPrimitive type) := by
  intro flat
  cases type <;> exact congrArg Except.ok (Array.toList_inj.mp (by simp [pushPrimitive]))

theorem Kind.appends_pushCases (push : PushRef) (cases : List (Option TypeRef)) :
    Appends (pushCases push · cases) := by
  refine appends_of_eq
    (((cases.filterMap fun payload => payload).mapM push.alone).map fun flats =>
      .ofInt (.ofCases cases.length) :: joinAll flats) fun flat => ?_
  rw [pushCases_eq]
  cases (cases.filterMap fun payload => payload).mapM push.alone <;> rfl

/-- **A kind appends what it pushes if the types that it mentions do.** -/
theorem Kind.appends_pushFlat {push : PushRef} {kind : TypeKind}
    (each : ∀ type ∈ kind.mentions, Appends (push · type)) : Appends (kind.pushFlat push) := by
  cases kind with
  | synonym target => exact each target (List.mem_singleton_self target)
  | record fields =>
    exact appends_foldlM fun field member => each field.type (List.mem_map_of_mem member)
  | tuple types => exact appends_foldlM each
  | variant cases => exact appends_pushCases push _
  | enum cases => exact appends_pushCases push _
  | option payload => exact appends_pushCases push _
  | result ok err => exact appends_pushCases push _
  | unknown => exact fun _ => rfl
  | flags labels =>
    exact appends_of_eq (.ok (List.replicate (FlagsShape.wordCount labels.length) .i32)) fun _ => rfl
  | list _ => exact appends_of_eq (.ok [.pointer, .i32]) fun _ => rfl
  | pointer _ => exact appends_of_eq (.ok [.pointer]) fun _ => rfl
  | _ => exact appends_of_eq (.ok [.i32]) fun _ => rfl

/-! ### Types -/

namespace Graph

variable {graph : Graph}

/-- **A type appends its flat form**, or fails whatever has been pushed before. -/
theorem appends_pushRef (depth : Nat) (type : TypeRef) : Appends (graph.pushRef depth · type) := by
  induction depth generalizing type with
  | zero =>
    cases type with
    | primitive type => exact FlatForm.appends_pushPrimitive type
    | defined id => exact fun _ => rfl
  | succ depth ih =>
    cases type with
    | primitive type => exact FlatForm.appends_pushPrimitive type
    | defined id =>
      show Appends fun flat => graph.pushRef (depth + 1) flat (.defined id)
      unfold pushRef
      cases graph.kind? id with
      | none => exact appends_of_eq (.ok []) fun _ => rfl
      | some kind => exact Kind.appends_pushFlat fun type _ => ih type

theorem alone_pushType (type : TypeRef) : PushRef.alone graph.pushType type = graph.flat type := by
  rw [PushRef.alone, flat]
  cases graph.pushType #[] type <;> rfl

/-- The flat forms of some types, one by one. -/
def HaveFlatForms (graph : Graph) (types : List TypeRef) (flats : List (List CoreType)) : Prop :=
  List.Forall₂ (fun type flat => graph.flat type = .ok flat) types flats

/-- Grounded types have flat forms, if kinds are known. -/
theorem IsClosed.exists_haveFlatForms (closed : graph.IsClosed)
    (known : ∀ id, graph.kind? id ≠ some .unknown) {types : List TypeRef}
    (held : ∀ id, .defined id ∈ types → graph.Holds id.item)
    (grounded : ∀ type ∈ types, graph.IsGroundedType type) :
    ∃ flats, graph.HaveFlatForms types flats := by
  refine Success.exists_forall₂ fun type member => ?_
  obtain ⟨pushed, isPushed⟩ := closed.exists_pushType known
    (fun id same => held id (same ▸ member)) (grounded type member) #[]
  exact ⟨pushed.toList, Success.bind_return_eq_ok_iff.mpr ⟨pushed, isPushed, rfl⟩⟩

/-- **The flat forms of several types come after one another.** -/
theorem flatAll_eq (types : List TypeRef) :
    graph.flatAll types = (types.mapM graph.flat).map List.flatten := by
  have pushed : types.foldlM graph.pushType #[]
      = (types.mapM fun type => (graph.pushType #[] type).map Array.toList).map
          fun flats : List (List CoreType) => (#[] : FlatForm) ++ flats.flatten :=
    foldlM_of_appends (fun type _ => appends_pushRef _ type) #[]
  have alone : (fun type => (graph.pushType #[] type).map Array.toList) = graph.flat :=
    funext alone_pushType
  rw [flatAll, pushed, alone]
  cases types.mapM graph.flat with
  | error fault => rfl
  | ok flats => exact congrArg Except.ok (by simp)

theorem HaveFlatForms.flatAll_eq {types : List TypeRef} {flats : List (List CoreType)}
    (forms : graph.HaveFlatForms types flats) : graph.flatAll types = .ok flats.flatten := by
  rw [Graph.flatAll_eq, Success.mapM_eq_ok_iff.mpr forms]
  rfl

/-! ### Types and kinds that have flat forms -/

variable {id : TypeId} {kind : TypeKind}

/-- The kind is known, and everything that it mentions is flattenable. -/
structure IsFlattenableKind (graph : Graph) (kind : TypeKind) : Prop where
  known : kind ≠ .unknown
  mentioned : ∀ type ∈ kind.mentions, graph.IsFlattenableType type

/-- A definition of a flattenable kind is flattenable. -/
theorem IsFlattenableKind.isFlattenable (flattenable : graph.IsFlattenableKind kind)
    (found : graph.kind? id = some kind) : graph.IsFlattenable id := by
  have each (other : TypeId) (member : other ∈ graph.directIds id) : graph.IsFlattenable other := by
    rw [directIds_of_kind? found] at member
    exact flattenable.mentioned (.defined other) (Kind.mem_directIds_iff.mp member)
  refine ⟨fun other path => ?_, fun other path => ?_,
    isGrounded_of_directIds fun other member => (each other member).grounded⟩
  · rcases Relation.ReflTransGen.cases_head path with rfl | ⟨first, member, rest⟩
    · exact holds_of_kind? found
    · exact (each first member).contained other rest
  · rcases Relation.ReflTransGen.cases_head path with rfl | ⟨first, member, rest⟩
    · exact fun unknown => flattenable.known (Option.some.inj (found.symm.trans unknown))
    · exact (each first member).known other rest

/-- The slots are what the kind pushes. -/
structure PushesSlots (graph : Graph) (kind : TypeKind) (slots : List CoreType) : Prop where
  /-- Whatever has been pushed before stays as it is, and does not matter for the slots behind it. -/
  appended : ∀ flat : FlatForm, graph.pushKind flat kind = .ok (flat ++ slots)
  /-- They are the flat form of every definition of the kind. -/
  ofDefinition : ∀ id, graph.kind? id = some kind → graph.flat (.defined id) = .ok slots
  /-- Those of a record or tuple are the flat forms of its fields after one another. -/
  concatenated : ∀ fields, kind.despecialize = .record fields →
    ∃ flats, graph.HaveFlatForms (fields.map Field.type) flats ∧ slots = flats.flatten

theorem IsFlattenableType.appended {type : TypeRef} (flattenable : graph.IsFlattenableType type) :
    ∃ slots : List CoreType, graph.flat type = .ok slots
      ∧ ∀ flat, graph.pushType flat type = .ok (flat ++ slots) := by
  obtain ⟨pushed, isPushed⟩ := flattenable.exists_pushType #[]
  refine ⟨pushed.toList, Success.bind_return_eq_ok_iff.mpr ⟨pushed, isPushed, rfl⟩, fun flat => ?_⟩
  have appends : graph.pushType flat type
      = ((graph.pushType #[] type).map Array.toList).map fun slots : List CoreType => flat ++ slots :=
    appends_pushRef graph.types.size type flat
  rw [appends, isPushed]
  rfl

theorem IsFlattenableKind.pushesSlots (flattenable : graph.IsFlattenableKind kind) :
    ∃ slots, graph.PushesSlots kind slots := by
  obtain ⟨pushed, isPushed⟩ : ∃ pushed, kind.pushFlat graph.pushType #[] = .ok pushed :=
    Kind.exists_pushFlat flattenable.known
      (fun type member => (flattenable.mentioned type member).exists_pushType) #[]
  refine ⟨pushed.toList, fun flat => ?_, fun id found => ?_, fun fields isRecord => ?_⟩
  · have appends : kind.pushFlat graph.pushType flat
        = ((kind.pushFlat graph.pushType #[]).map Array.toList).map
            fun slots : List CoreType => flat ++ slots :=
      Kind.appends_pushFlat (fun type _ => appends_pushRef graph.types.size type) flat
    rw [pushKind, appends, isPushed]
    rfl
  · have isFlattenable := flattenable.isFlattenable found
    have same := isFlattenable.contained.pushType_eq isFlattenable.grounded found #[]
    exact Success.bind_return_eq_ok_iff.mpr ⟨pushed, same.trans isPushed, rfl⟩
  · have fieldByField : (fields.map Field.type).foldlM graph.pushType #[] = .ok pushed := by
      rw [List.foldlM_map, ← isPushed, ← Kind.pushFlat_despecialize, isRecord]
      rfl
    have together : graph.flatAll (fields.map Field.type) = .ok pushed.toList :=
      Success.bind_return_eq_ok_iff.mpr ⟨pushed, fieldByField, rfl⟩
    rw [flatAll_eq, Success.map_eq_ok_iff] at together
    obtain ⟨flats, areFlats, joined⟩ := together
    exact ⟨flats, Success.mapM_eq_ok_iff.mp areFlats, joined.symm⟩

/-- **Flat forms are appended.** A type or kind that leads to no circle, to no unknown kind and to nothing
outside the graph has a flat form, which is pushed behind whatever has been pushed before. -/
theorem flatForms_appended (graph : Graph) :
    (∀ type, graph.IsFlattenableType type →
      ∃ slots : List CoreType, graph.flat type = .ok slots
        ∧ ∀ flat, graph.pushType flat type = .ok (flat ++ slots))
    ∧ ∀ kind, graph.IsFlattenableKind kind → ∃ slots, graph.PushesSlots kind slots :=
  ⟨fun _ flattenable => flattenable.appended, fun _ flattenable => flattenable.pushesSlots⟩

end Graph

/-! ### A graph that is not finished -/

namespace Unfinished

/-- Besides a result, a record with it and an option of the record, the graph has a type on a circle, one
that is not known yet and one that refers to a type outside the graph. -/
def graph : Graph where
  types := #[{ kind := .list (.defined ⟨0⟩) }, { kind := .unknown },
    { kind := .synonym (.defined ⟨9⟩) },
    { kind := .result (some (.primitive .u64)) (some (.primitive .string)) },
    { kind := .record [{ name := "first", type := .primitive .f32 },
      { name := "second", type := .defined ⟨3⟩ }] },
    { kind := .option (.defined ⟨4⟩) }]

theorem isFlattenable_result : graph.IsFlattenable ⟨3⟩ := by
  have kind : graph.IsFlattenableKind (.result (some (.primitive .u64)) (some (.primitive .string))) :=
    ⟨by decide, by simp [Kind.mentions, Graph.IsFlattenableType]⟩
  exact kind.isFlattenable rfl

theorem isFlattenableKind_record : graph.IsFlattenableKind
    (.record [{ name := "first", type := .primitive .f32 },
      { name := "second", type := .defined ⟨3⟩ }]) :=
  ⟨by decide, by simp [Kind.mentions, Graph.IsFlattenableType, isFlattenable_result]⟩

theorem isFlattenable_option : graph.IsFlattenable ⟨5⟩ := by
  have record : graph.IsFlattenable ⟨4⟩ := isFlattenableKind_record.isFlattenable rfl
  have kind : graph.IsFlattenableKind (.option (.defined ⟨4⟩)) :=
    ⟨by decide, by simp [Kind.mentions, Graph.IsFlattenableType, record]⟩
  exact kind.isFlattenable rfl

end Unfinished

namespace Graph

/-- Behind two floats, the tag of the option does not join with the first one. -/
theorem flatForms_appended_unfinished :
    Unfinished.graph.OnCircle ⟨0⟩ ∧ Unfinished.graph.kind? ⟨1⟩ = some .unknown
      ∧ Unfinished.graph.kind? ⟨9⟩ = none
      ∧ Unfinished.graph.IsFlattenableType (.defined ⟨5⟩)
      ∧ Unfinished.graph.flat (.defined ⟨5⟩) = .ok [.i32, .f32, .i32, .i64, .i32]
      ∧ Unfinished.graph.pushType #[.f32, .f64] (.defined ⟨5⟩)
        = .ok #[.f32, .f64, .i32, .f32, .i32, .i64, .i32]
      ∧ Unfinished.graph.IsFlattenableKind (.record [{ name := "first", type := .primitive .f32 },
        { name := "second", type := .defined ⟨3⟩ }])
      ∧ Unfinished.graph.PushesSlots (.record [{ name := "first", type := .primitive .f32 },
        { name := "second", type := .defined ⟨3⟩ }]) ([.f32] ++ [.i32, .i64, .i32]) := by
  have onCircle : Unfinished.graph.OnCircle ⟨0⟩ := .single (by decide)
  have isFlat : Unfinished.graph.flat (.defined ⟨5⟩) = .ok [.i32, .f32, .i32, .i64, .i32] := by
    decide +kernel
  obtain ⟨slots, areSlots, appended⟩ :=
    (flatForms_appended Unfinished.graph).1 (.defined ⟨5⟩) Unfinished.isFlattenable_option
  obtain rfl := Except.ok.inj (isFlat.symm.trans areSlots)
  obtain ⟨fieldSlots, pushes⟩ :=
    (flatForms_appended Unfinished.graph).2 _ Unfinished.isFlattenableKind_record
  have isRecord : Unfinished.graph.flat (.defined ⟨4⟩) = .ok [.f32, .i32, .i64, .i32] := by
    decide +kernel
  obtain rfl := Except.ok.inj (isRecord.symm.trans (pushes.ofDefinition ⟨4⟩ rfl))
  exact ⟨onCircle, rfl, rfl, Unfinished.isFlattenable_option, isFlat, appended #[.f32, .f64],
    Unfinished.isFlattenableKind_record, pushes⟩

end Graph

end WitGraph
