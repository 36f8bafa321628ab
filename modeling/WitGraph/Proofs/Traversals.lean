/-
**All traversals of a kind see the same ids.**

A kind is gone through in three ways: its mentions are asked about until the answer is yes
(`Kind.anyMentionM`), its ids are listed (`Kind.directIds`), and its ids are replaced one after another
(`Kind.renameM`), as when it is copied. `SeesAlike` says that the ids seen are the same, in the same order,
and that reducing a kind to a record or variant does not change them.

Replacing leaves the rest of the kind as it was, its `Kind.outline`: kinds with the same outline and the same
ids are the same (`Kind.eq_of_outline`). The steps that replace ids are put together from `Replaces`, one
lemma for each way in which a kind holds references. So what a traversal makes of the ids is what it makes of
the kind (`Kind.renameM_eq`): renaming does not depend on the order, and copying, in which it matters where
the copies stand, renames the kind to the copies that there are in the end. A copier brings all that a
definition refers to and then renames it; this is the same as copying its owner and then each of the ids
(`Copier.run_populateType`).
-/

import WitGraph.Proofs.Copying.Sequence
import WitGraph.Proofs.Renaming

namespace WitGraph

variable {m : Type → Type} [Monad m]

/-! ### The traversals -/

namespace TypeRef

/-- Notes the definition that is used, if any, and answers no. -/
def note (type : TypeRef) : StateM (List TypeId) Bool := do
  modify (· ++ type.id?.toList)
  return false

/-- The reference with its id replaced. -/
def renameM (visit : TypeId → m TypeId) : TypeRef → m TypeRef
  | .primitive type => return .primitive type
  | .defined id => do return .defined (← visit id)

/-- What is left of a reference without its id. -/
def primitive? : TypeRef → Option Primitive
  | .primitive type => some type
  | .defined _ => none

end TypeRef

/-- What is left of a field without its id. -/
def Field.outline (field : Field TypeRef) : Field (Option Primitive) :=
  { field with type := field.type.primitive? }

/-- What is left of a case without its id. -/
def Case.outline (case : Case TypeRef) : Case (Option Primitive) :=
  { case with type := case.type.map TypeRef.primitive? }

namespace Kind

/-- Asks about the types that a kind mentions, in order, until the answer is yes. -/
def anyMentionM (ask : TypeRef → m Bool) (kind : TypeKind) : m Bool :=
  kind.mentions.anyM ask

/-- The kind with its ids replaced, one after another. -/
def renameM (visit : TypeId → m TypeId) (kind : TypeKind) : m TypeKind :=
  kind.mapM visit (TypeRef.renameM visit)

/-- What is left of a kind without its ids. -/
def outline : TypeKind → Kind Unit (Option Primitive)
  | .record fields => .record (fields.map Field.outline)
  | .resource => .resource
  | .own _ => .own ()
  | .borrow _ => .borrow ()
  | .flags labels => .flags labels
  | .tuple types => .tuple (types.map TypeRef.primitive?)
  | .variant cases => .variant (cases.map Case.outline)
  | .enum cases => .enum cases
  | .option payload => .option payload.primitive?
  | .result ok err => .result (ok.map TypeRef.primitive?) (err.map TypeRef.primitive?)
  | .list element => .list element.primitive?
  | .future payload => .future (payload.map TypeRef.primitive?)
  | .stream payload => .stream (payload.map TypeRef.primitive?)
  | .errorContext => .errorContext
  | .pointer target => .pointer target.primitive?
  | .synonym target => .synonym target.primitive?
  | .unknown => .unknown

end Kind

theorem filterMap_cons_toList {α : Type} (id? : α → Option TypeId) (first : α) (rest : List α) :
    (first :: rest).filterMap id? = (id? first).toList ++ rest.filterMap id? := by
  cases found : id? first <;> simp [found]

/-! ### Replacing ids -/

/-- The step visits the ids of the element, in order, and what it gives has the ids that the visits give
and looks like the element otherwise. -/
def Replaces (visit : TypeId → m TypeId) {α β : Type} (ids : α → List TypeId) (look : α → β)
    (element : α) (step : m α) : Prop :=
  ∀ {γ : Type} (rest : β → List TypeId → m γ),
    (step >>= fun changed => rest (look changed) (ids changed))
      = (ids element).mapM visit >>= fun found => rest (look element) found

section Replaces

variable [LawfulMonad m] {visit : TypeId → m TypeId} {α β : Type}
  {ids : α → List TypeId} {look : α → β}

/-- One step after another replaces the ids of both elements in order. -/
theorem Replaces.both {δ ε γ : Type} {otherIds : δ → List TypeId} {otherLook : δ → ε} {first : α}
    {second : δ} {step : m α} {otherStep : m δ} (replaces : Replaces visit ids look first step)
    (others : Replaces visit otherIds otherLook second otherStep)
    (rest : β → ε → List TypeId → m γ) :
    (step >>= fun changed => otherStep >>= fun other =>
        rest (look changed) (otherLook other) (ids changed ++ otherIds other))
      = (ids first ++ otherIds second).mapM visit >>= fun found =>
          rest (look first) (otherLook second) found := by
  have later := replaces fun seen found => otherStep >>= fun other =>
    rest seen (otherLook other) (found ++ otherIds other)
  have last (found : List TypeId) := others fun seen more => rest (look first) seen (found ++ more)
  rw [later, List.mapM_append]
  simp only [last, bind_assoc, pure_bind]

theorem replaces_ref (type : TypeRef) :
    Replaces visit (fun type => type.id?.toList) TypeRef.primitive? type (type.renameM visit) := by
  intro γ rest
  cases type with
  | primitive type => simp [TypeRef.renameM, TypeRef.id?]
  | defined id => simp [TypeRef.renameM, TypeRef.id?, TypeRef.primitive?]

theorem replaces_ref? (type : Option TypeRef) :
    Replaces visit (fun type => (type.bind TypeRef.id?).toList) (Option.map TypeRef.primitive?) type
      (Kind.mapOptionM (TypeRef.renameM visit) type) := by
  intro γ rest
  cases type with
  | none => simp [Kind.mapOptionM]
  | some type =>
    simp only [Kind.mapOptionM, bind_assoc, pure_bind]
    exact replaces_ref type fun seen => rest (some seen)

theorem replaces_field (field : Field TypeRef) :
    Replaces visit (fun field => field.type.id?.toList) Field.outline field (do
      return { name := field.name, type := ← field.type.renameM visit, docs := field.docs }) := by
  intro γ rest
  simp only [bind_assoc, pure_bind]
  exact replaces_ref field.type fun seen => rest { field with type := seen }

theorem replaces_case (case : Case TypeRef) :
    Replaces visit (fun case => (case.type.bind TypeRef.id?).toList) Case.outline case (do
      let type ← Kind.mapOptionM (TypeRef.renameM visit) case.type
      return { name := case.name, type, docs := case.docs }) := by
  intro γ rest
  simp only [bind_assoc, pure_bind]
  exact replaces_ref? case.type fun seen => rest { case with type := seen }

/-- Replacing the ids of one element after another replaces all their ids in order. -/
theorem replaces_mapM {id? : α → Option TypeId} {step : α → m α}
    (each : ∀ element, Replaces visit (fun element => (id? element).toList) look element (step element))
    (list : List α) :
    Replaces visit (List.filterMap id?) (List.map look) list (list.mapM step) := by
  induction list with
  | nil =>
    intro γ rest
    simp
  | cons first others ih =>
    intro γ rest
    simp only [List.mapM_cons, bind_assoc, pure_bind, List.map_cons, filterMap_cons_toList]
    exact Replaces.both (each first) ih fun seen others => rest (seen :: others)

/-- **The ids of a kind are replaced in order**, and nothing else is. -/
theorem Kind.replaces_renameM (kind : TypeKind) :
    Replaces visit directIds outline kind (kind.renameM visit) := by
  intro γ rest
  cases kind <;> simp only [renameM, mapM, bind_assoc, pure_bind]
  case record fields => exact replaces_mapM replaces_field fields fun seen => rest (.record seen)
  case variant cases => exact replaces_mapM replaces_case cases fun seen => rest (.variant seen)
  case tuple types => exact replaces_mapM replaces_ref types fun seen => rest (.tuple seen)
  case result ok err =>
    exact Replaces.both (replaces_ref? ok) (replaces_ref? err) fun okSeen errSeen =>
      rest (.result okSeen errSeen)
  case option type | list type | pointer type | synonym type =>
    exact replaces_ref type fun seen => rest _
  case future type | stream type => exact replaces_ref? type fun seen => rest _
  case own id | borrow id => simp [directIds, outline]
  all_goals simp [directIds, outline]

end Replaces

/-! ### Nothing else in a kind -/

/-- How an element looks says how many ids it has, and together with the ids which element it is. -/
structure Determines {α β : Type} (look : α → β) (ids : α → List TypeId) : Prop where
  placed : ∀ {first second : α}, look first = look second → (ids first).length = (ids second).length
  same : ∀ {first second : α}, look first = look second → ids first = ids second → first = second

theorem determines_ref : Determines TypeRef.primitive? (fun type => type.id?.toList) where
  placed {first second} look := by
    cases first <;> cases second <;> simp_all [TypeRef.primitive?, TypeRef.id?]
  same {first second} look ids := by
    cases first <;> cases second <;> simp_all [TypeRef.primitive?, TypeRef.id?]

theorem determines_ref? : Determines (Option.map TypeRef.primitive?)
    (fun type => (type.bind TypeRef.id?).toList) where
  placed {first second} look := by
    cases first <;> cases second <;> simp_all
    exact determines_ref.placed look
  same {first second} look ids := by
    cases first <;> cases second <;> simp_all
    exact determines_ref.same look ids

theorem determines_field : Determines Field.outline (fun field => field.type.id?.toList) where
  placed look := determines_ref.placed (Field.mk.inj look).2.1
  same {first second} look ids := by
    obtain ⟨name, look, docs⟩ := Field.mk.inj look
    have type := determines_ref.same look ids
    cases first; cases second; simp_all

theorem determines_case :
    Determines Case.outline (fun case => (case.type.bind TypeRef.id?).toList) where
  placed look := determines_ref?.placed (Case.mk.inj look).2.1
  same {first second} look ids := by
    obtain ⟨name, look, docs⟩ := Case.mk.inj look
    have type := determines_ref?.same look ids
    cases first; cases second; simp_all

/-- Lists are determined by how their elements look and by the ids in them. -/
theorem Determines.list {α β : Type} {look : α → β} {id? : α → Option TypeId}
    (determines : Determines look fun element => (id? element).toList) {first second : List α}
    (looks : first.map look = second.map look) (ids : first.filterMap id? = second.filterMap id?) :
    first = second := by
  induction first generalizing second with
  | nil => exact (List.map_eq_nil_iff.mp looks.symm).symm
  | cons element rest ih =>
    cases second with
    | nil => cases looks
    | cons other others =>
      obtain ⟨look, looks⟩ := List.cons.inj looks
      rw [filterMap_cons_toList, filterMap_cons_toList] at ids
      obtain ⟨one, more⟩ := List.append_inj ids (determines.placed look)
      rw [determines.same look one, ih looks more]

/-- **A kind is determined by its ids and the rest of it.** -/
theorem Kind.eq_of_outline {kind other : TypeKind} (look : kind.outline = other.outline)
    (ids : kind.directIds = other.directIds) : kind = other := by
  -- kinds of different nouns have different outlines
  cases kind <;> cases other <;> first | cases look; done | skip
  case record.record => rw [determines_field.list (record.inj look) ids]
  case variant.variant => rw [determines_case.list (variant.inj look) ids]
  case tuple.tuple => rw [determines_ref.list (tuple.inj look) ids]
  case result.result =>
    obtain ⟨okLook, errLook⟩ := result.inj look
    obtain ⟨okIds, errIds⟩ := List.append_inj ids (determines_ref?.placed okLook)
    rw [determines_ref?.same okLook okIds, determines_ref?.same errLook errIds]
  case option.option => rw [determines_ref.same (option.inj look) ids]
  case list.list => rw [determines_ref.same (list.inj look) ids]
  case pointer.pointer => rw [determines_ref.same (pointer.inj look) ids]
  case synonym.synonym => rw [determines_ref.same (synonym.inj look) ids]
  case future.future => rw [determines_ref?.same (future.inj look) ids]
  case stream.stream => rw [determines_ref?.same (stream.inj look) ids]
  case own.own | borrow.borrow => rw [(List.cons.inj ids).1]
  case flags.flags => rw [flags.inj look]
  case enum.enum => rw [enum.inj look]
  all_goals rfl

/-! ### What is made of a kind -/

namespace Kind

variable {kind : TypeKind}

theorem outline_rename (via : Renaming) (kind : TypeKind) : (kind.rename via).outline = kind.outline := by
  have look (type : TypeRef) : (type.rename via).primitive? = type.primitive? := by cases type <;> rfl
  have look? (type : Option TypeRef) :
      (type.map (TypeRef.rename via)).map TypeRef.primitive? = type.map TypeRef.primitive? := by
    cases type with
    | none => rfl
    | some type => exact congrArg some (look type)
  cases kind <;> simp [rename, outline, Field.outline, Case.outline, look, look?]

/-- **What a traversal makes of the ids is what it makes of the kind.** -/
theorem renameM_eq [LawfulMonad m] {τ : Type} {visit : TypeId → m TypeId} {walk : m τ}
    {via : τ → Renaming}
    (visited : kind.directIds.mapM visit = walk >>= fun done => pure (kind.directIds.map (via done))) :
    kind.renameM visit = walk >>= fun done => pure (kind.rename (via done)) := by
  have determined : Function.Injective fun kind : TypeKind => (kind.outline, kind.directIds) :=
    fun _ _ same => eq_of_outline (Prod.mk.inj same).1 (Prod.mk.inj same).2
  have : Nonempty TypeKind := ⟨kind⟩
  obtain ⟨rebuild, restores⟩ := determined.hasLeftInverse
  have whole (kind : TypeKind) : rebuild (kind.outline, kind.directIds) = kind := restores kind
  have renames (done : τ) :
      rebuild (kind.outline, kind.directIds.map (via done)) = kind.rename (via done) := by
    rw [← outline_rename (via done), ← directIds_rename, whole]
  calc kind.renameM visit
      = kind.renameM visit >>= fun changed => pure (rebuild (changed.outline, changed.directIds)) := by
        simp only [whole, bind_pure]
    _ = kind.directIds.mapM visit >>= fun found => pure (rebuild (kind.outline, found)) :=
        kind.replaces_renameM fun seen found => pure (rebuild (seen, found))
    _ = walk >>= fun done => pure (kind.rename (via done)) := by
        simp only [visited, bind_assoc, pure_bind, renames]

/-- Renaming is replacing ids by ones that do not depend on what was replaced before. -/
theorem renameM_pure [LawfulMonad m] (via : Renaming) (kind : TypeKind) :
    (kind.renameM fun id => pure (via id) : m TypeKind) = pure (kind.rename via) := by
  have visited : (kind.directIds.mapM fun id => pure (via id) : m (List TypeId))
      = pure () >>= fun _ => pure (kind.directIds.map via) := by
    rw [List.mapM_pure, pure_bind]
  rw [renameM_eq visited, pure_bind]

end Kind

/-! ### Copying -/

/-- A kind is copied by renaming it to the copies of its ids, made one after another. -/
theorem Kind.run_renameM_copyId (kind : TypeKind) (copier : Copier) :
    (kind.renameM Copier.copyId).run copier
      = (kind.rename (copier.copyIds kind.directIds).renamed, copier.copyIds kind.directIds) := by
  have visited : kind.directIds.mapM Copier.copyId = (do
        modify (Copier.copyIds · kind.directIds)
        get) >>= fun copier => pure (kind.directIds.map copier.renamed) :=
    StateT.ext (Copier.run_mapM_copyId kind.directIds)
  rw [renameM_eq visited]
  rfl

namespace Copier

variable {copier : Copier} {base : Graph}

/-- Copies the owner of a definition, replaces the ids of its kind one after another by their copies, and
puts what this gives into the copy of `id`. -/
def populateType (id : TypeId) (type : TypeDef) : StateM Copier Unit := do
  let owner ← modifyGet fun copier => (copier.copyOwner type.owner).swap
  let kind ← type.kind.renameM copyId
  modify fun copier =>
    { copier with target := copier.target.setEntity (copier.renamed id) { type with owner, kind } }

/-- The owner that is copied first stays the copy. -/
theorem rename_owner_copyIds (owner : Owner) (copier : Copier) (ids : List TypeId) :
    owner.rename ((copier.bring owner.item?.toList).copyIds ids).renamed
      = owner.rename (copier.bring owner.item?.toList).renamed := by
  cases owner with
  | none => rfl
  | world id =>
    exact congrArg Owner.world ((isSettled_bring (List.mem_singleton_self id.item)).renamed_copyIds ids)
  | interface id =>
    exact congrArg Owner.interface
      ((isSettled_bring (List.mem_singleton_self id.item)).renamed_copyIds ids)

/-- **A copy is filled with a definition by replacing its owner and the ids of its kind one after
another.** -/
theorem run_populateType (tidy : copier.Tidy base) (closed : copier.source.IsClosed) {id : TypeId}
    (copied : copier.Copied id.item) {type : TypeDef}
    (held : ∀ link ∈ type.links, copier.source.Holds link) :
    ((populateType id type).run copier).2 = copier.populate id.item type := by
  have heldOwner : ∀ item ∈ type.owner.item?.toList, copier.source.Holds item :=
    fun item member => held item (List.mem_append_left _ member)
  have brings := bring_brings tidy closed heldOwner
  have together : (copier.bring type.owner.item?.toList).copyIds type.kind.directIds
      = copier.bring type.links := by
    rw [copyIds_eq_bring (brings.tidy tidy) (brings.source ▸ closed) ?_, TypeDef.links,
      bring_append tidy closed heldOwner]
    intro other member
    rw [brings.source]
    exact held other.item (List.mem_append_right _ (List.mem_map_of_mem member))
  have ownerKept := rename_owner_copyIds type.owner copier type.kind.directIds
  have replaced := type.kind.run_renameM_copyId (copier.bring type.owner.item?.toList)
  rw [together] at ownerKept replaced
  unfold populate
  rw [reserve_of_copied copied]
  show (let step := (type.kind.renameM copyId).run (copier.bring type.owner.item?.toList)
    ({ step.2 with target := step.2.target.setEntity (step.2.renamed id) { type with
        owner := type.owner.rename (copier.bring type.owner.item?.toList).renamed, kind := step.1 } } :
        Copier)) = _
  rw [replaced, ← ownerKept]
  rfl

end Copier

/-! ### The same ids -/

namespace Kind

/-- Asked to note what they are asked about, types are noted in order. -/
theorem run_anyM_note (types : List TypeRef) (noted : List TypeId) :
    (types.anyM TypeRef.note).run noted = (false, noted ++ types.filterMap TypeRef.id?) := by
  induction types generalizing noted with
  | nil =>
    rw [List.filterMap_nil, List.append_nil]
    rfl
  | cons first rest ih =>
    rw [filterMap_cons_toList, ← List.append_assoc]
    exact ih (noted ++ first.id?.toList)

/-- What the traversals of a kind owe each other. -/
structure SeesAlike (kind : TypeKind) : Prop where
  /-- Whoever is asked about the types that are mentioned, and never says yes, is handed the ids in order. -/
  asked : (kind.anyMentionM TypeRef.note).run [] = (false, kind.directIds)
  /-- Asking in this way is what decides whether a kind mentions a type of some sort. -/
  decided : ∀ ask : TypeRef → Bool,
    Id.run (kind.anyMentionM fun type => pure (ask type)) = kind.mentions.any ask
  /-- Whatever the visits do, replacing visits the ids in order, puts what the visits give in their places
  and leaves everything else as it was. -/
  replaced : ∀ {σ : Type} (visit : TypeId → StateM σ TypeId),
    (do let changed ← kind.renameM visit
        return (changed.directIds, changed.outline))
      = (do let found ← kind.directIds.mapM visit
            return (found, kind.outline))
  renamed : ∀ via : Renaming, Id.run (kind.renameM fun id => pure (via id)) = kind.rename via
  /-- Copying the ids one after another renames the kind to the copies that there are in the end. -/
  copied : ∀ copier : Copier, (kind.renameM Copier.copyId).run copier
    = (kind.rename (copier.copyIds kind.directIds).renamed, copier.copyIds kind.directIds)
  /-- This is how a copier fills a copy with a definition of the kind. -/
  populated : ∀ {copier : Copier} {base : Graph} {id : TypeId} {type : TypeDef}, type.kind = kind →
    copier.Tidy base → copier.source.IsClosed → copier.Copied id.item →
    (∀ link ∈ type.links, copier.source.Holds link) →
    ((Copier.populateType id type).run copier).2 = copier.populate id.item type
  /-- Besides its ids a kind is nothing but its outline. -/
  whole : ∀ other : TypeKind,
    other = kind ↔ other.directIds = kind.directIds ∧ other.outline = kind.outline
  reduced : kind.despecialize.directIds = kind.directIds

/-- **All traversals of a kind see the same ids in the same order**, whether they ask about its types, list
its ids, replace them or copy them, and so do those of the record or variant that it is reduced to; replacing
the ids leaves everything else as it was. -/
theorem traversals_agree (kind : TypeKind) : kind.SeesAlike where
  asked := by
    rw [directIds_eq_filterMap]
    exact run_anyM_note kind.mentions []
  decided _ := congrArg Id.run List.anyM_pure
  replaced visit := kind.replaces_renameM fun seen found => pure (found, seen)
  renamed via := congrArg Id.run (renameM_pure via kind)
  copied copier := kind.run_renameM_copyId copier
  populated _ tidy closed copied held := Copier.run_populateType tidy closed copied held
  whole other := ⟨fun same => same ▸ ⟨rfl, rfl⟩, fun ⟨ids, look⟩ => eq_of_outline look ids⟩
  reduced := by
    rw [directIds_eq_filterMap, directIds_eq_filterMap, mentions_despecialize]

/-- Ids that are handed out one after another stand in the kind in this order. -/
example : (renameM (fun _ => modifyGet fun next => (⟨next⟩, next + 1))
      (.result (some (.defined ⟨7⟩)) (some (.defined ⟨3⟩))) : StateM Nat TypeKind).run 0
    = (result (some (TypeRef.defined ⟨0⟩)) (some (TypeRef.defined ⟨1⟩)), 2) := rfl

end Kind

end WitGraph
