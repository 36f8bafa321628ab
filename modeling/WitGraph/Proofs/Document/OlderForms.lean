/-
**Older forms of documents.**

Some parts of a document may be written in an older form: an interface reference as a bare position
instead of an object, the result of a function as a list with one result without a name, a
floating-point type by its longer name, and the kind `error-context` without its hyphen.
`OlderDocument` relates a document to one in which any number of its parts are written so.

What is read of a type in an older form has the same modern form (`respects_readType?`).
-/

import WitGraph.Proofs.Document.Modern
import WitGraph.Proofs.Json.Changes

namespace WitGraph

open Json (Change Respects InItems InEntries InFields InAlternative)

namespace Document

/-! ### Older forms -/

/-- A floating-point type by its longer name. -/
inductive OlderRef : Change
  | f32 : OlderRef (.text "f32") (.text "float32")
  | f64 : OlderRef (.text "f64") (.text "float64")

/-- A parameter or result. -/
def OlderParam : Change :=
  InFields ["name", "type"] [("type", OlderRef)]

/-- A field of a record type or a case of a variant. -/
def OlderField : Change :=
  InFields ["name", "type", "docs"] [("type", OlderRef)]

/-- The alternatives of a kind within which types are used. -/
def olderKinds : List (String × Change) := [
  ("record", InFields ["fields"] [("fields", InItems OlderField)]),
  ("tuple", InFields ["types"] [("types", InItems OlderRef)]),
  ("variant", InFields ["cases"] [("cases", InItems OlderField)]),
  ("option", OlderRef),
  ("result", InFields ["ok", "err"] [("ok", OlderRef), ("err", OlderRef)]),
  ("list", OlderRef),
  ("future", OlderRef),
  ("stream", OlderRef),
  ("type", OlderRef)]

/-- The kind of a type. -/
inductive OlderKind : Change
  | errorContext : OlderKind (.text "error-context") (.text "errorcontext")
  | errorContextObject (contents : Json) :
    OlderKind (.record [("error-context", contents)]) (.record [("errorcontext", contents)])
  | alternative {value other : Json} (change : InAlternative olderKinds value other) :
    OlderKind value other

/-- A type definition. -/
def OlderType : Change :=
  InFields ["name", "kind", "owner", "docs", "stability"] [("kind", OlderKind)]

/-- A result of the type, without a name or with an empty one. -/
def IsUnnamed (type result : Json) : Prop :=
  ∃ fields, result.fields? ["name", "type"] = some fields ∧ fields.lookup "type" = some type
    ∧ ∀ name, fields.lookup "name" = some name → name = .text ""

/-- The names of the fields of a function. -/
def functionFields : List String :=
  ["name", "kind", "params", "result", "results", "docs", "stability"]

/-- A function. A `result` becomes a list of results with one entry, at any place among the other
members. Besides, a `result` or `results` that is null may be left out. -/
inductive OlderFunction : Change
  | fields {value other : Json}
    (change : InFields functionFields
      [("params", InItems OlderParam), ("result", OlderRef), ("results", InItems OlderParam)]
      value other) : OlderFunction value other
  | results {before after first last : List (Contents × Json)} {type result : Json}
    (isType : type ≠ .null) (unnamed : IsUnnamed type result)
    (others : first ++ last = before ++ after)
    (noResult : ∀ member ∈ before ++ after, member.1 ≠ some "result")
    (noResults : ∀ member ∈ before ++ after, member.1 ≠ some "results") :
    OlderFunction (.object (before ++ (some "result", type) :: after))
      (.object (first ++ (some "results", .array [result]) :: last))
  | nullMember {before after : List (Contents × Json)} {key : String}
    (isKey : key = "result" ∨ key = "results")
    (absent : ∀ member ∈ before ++ after, member.1 ≠ some key) :
    OlderFunction (.object (before ++ after)) (.object (before ++ (some key, .null) :: after))
  | resultsItem {name kind params type result : Json} {rest : List Json} (isType : type ≠ .null)
    (unnamed : IsUnnamed type result) :
    OlderFunction (.array (name :: kind :: params :: type :: .null :: rest))
      (.array (name :: kind :: params :: .null :: .array [result] :: rest))
  | nullItem {name kind params : Json} {results : List Json} (short : results.length ≤ 1) :
    OlderFunction (.array (name :: kind :: params :: results))
      (.array (name :: kind :: params :: (results ++ [.null])))

/-- An interface. -/
def OlderInterface : Change :=
  InFields ["name", "types", "functions", "package", "docs", "stability"]
    [("functions", InEntries OlderFunction)]

/-- A reference to an interface. Members of the object that are not known do not matter. -/
inductive OlderInterfaceRef : Change
  | bare {before after : List (Contents × Json)} {position : Number}
    (unknown : ∀ member ∈ before ++ after, ∃ key, member.1 = some key ∧ key ≠ "id"
      ∧ key ≠ "stability" ∧ member.2.isSelfContained (maxDepth - itemDepth - 1)) :
    OlderInterfaceRef (.object (before ++ (some "id", .number position) :: after)) (.number position)

/-- An import or export. -/
def OlderItem : Change :=
  InAlternative [("interface", OlderInterfaceRef), ("function", OlderFunction), ("type", OlderRef)]

/-- A world. -/
def OlderWorld : Change :=
  InFields ["name", "imports", "exports", "package", "docs", "stability"]
    [("imports", InEntries OlderItem), ("exports", InEntries OlderItem)]

/-- A document. -/
def OlderDocument : Change :=
  InFields ["worlds", "interfaces", "types", "packages"]
    [("worlds", InItems OlderWorld), ("interfaces", InItems OlderInterface),
      ("types", InItems OlderType)]

/-! ### Types -/

theorem respects_readRef? : Respects OlderRef Ref.modern readRef? := by
  intro _ _ change
  cases change with
  | f32 => exact .some rfl
  | f64 => exact .some rfl

theorem OlderRef.present {value other : Json} (change : OlderRef value other) :
    value ≠ .null ∧ other ≠ .null := by
  cases change <;> exact ⟨Json.noConfusion, Json.noConfusion⟩

theorem respects_readParam? : Respects OlderParam Param.modern readParam? := by
  intro _ _ change
  refine Json.rel_bind (Json.rel_fields? change) fun fields others same => ?_
  rw [Json.optional?_congr (same.kept "name" (by decide))]
  refine Json.rel_bind_same fun name => ?_
  refine Json.rel_bind (Json.rel_required? respects_readRef? (same.changed (by simp)))
    fun _ _ type => ?_
  exact .some (congrArg (Param.mk name) type)

theorem respects_readField? : Respects OlderField Field.modern readField? := by
  intro _ _ change
  refine Json.rel_bind (Json.rel_fields? change) fun fields others same => ?_
  unfold docsOf?
  rw [Json.required?_congr (same.kept "name" (by decide)),
    Json.optional?_congr (same.kept "docs" (by decide))]
  refine Json.rel_bind_same fun name => ?_
  refine Json.rel_bind (Json.rel_required? respects_readRef? (same.changed (by simp)))
    fun _ _ type => ?_
  refine Json.rel_bind_same fun docs => ?_
  exact .some (congrArg (Field.mk name · docs) type)

theorem respects_nullable_readRef? :
    Respects OlderRef (Option.map Ref.modern) (Json.nullable? readRef?) :=
  respects_readRef?.nullable fun _ _ => OlderRef.present

theorem respects_readCase? : Respects OlderField Case.modern readCase? := by
  intro _ _ change
  refine Json.rel_bind (Json.rel_fields? change) fun fields others same => ?_
  unfold docsOf?
  rw [Json.required?_congr (same.kept "name" (by decide)),
    Json.optional?_congr (same.kept "docs" (by decide))]
  refine Json.rel_bind_same fun name => ?_
  refine Json.rel_bind (Json.rel_optional? respects_nullable_readRef? none (same.changed (by simp)))
    fun _ _ type => ?_
  refine Json.rel_bind_same fun docs => ?_
  exact .some (congrArg (Case.mk name · docs) type)

theorem respects_readList? {α β : Type} {change : Change} {form : α → β} {read : Json → Option α}
    (name : String) (reads : Respects change form read) :
    Respects (InFields [name] [(name, InItems change)]) (List.map form) (readList? name read) := by
  intro _ _ changed
  refine Json.rel_bind (Json.rel_fields? changed) fun fields others same => ?_
  exact Json.rel_required? (Json.respects_items? reads) (same.changed (by simp))

theorem respects_readResult? :
    Respects (InFields ["ok", "err"] [("ok", OlderRef), ("err", OlderRef)]) Kind.modern
      readResult? := by
  intro _ _ change
  refine Json.rel_bind (Json.rel_fields? change) fun fields others same => ?_
  refine Json.rel_bind (Json.rel_optional? respects_nullable_readRef? none (same.changed (by simp)))
    fun _ _ ok => ?_
  refine Json.rel_bind (Json.rel_optional? respects_nullable_readRef? none (same.changed (by simp)))
    fun _ _ err => ?_
  exact .some (congrArg₂ Kind.result ok err)

theorem respects_readKind? : Respects OlderKind Kind.modern readKind? := by
  intro _ _ change
  cases change with
  | errorContext => exact .some rfl
  | errorContextObject contents => exact Json.rel_alike_refl _
  | alternative change =>
    obtain ⟨listed, change⟩ := change
    simp only [olderKinds, List.mem_cons, Prod.mk.injEq, List.not_mem_nil, or_false] at listed
    rcases listed with ⟨rfl, rfl⟩ | ⟨rfl, rfl⟩ | ⟨rfl, rfl⟩ | ⟨rfl, rfl⟩ | ⟨rfl, rfl⟩ | ⟨rfl, rfl⟩ |
      ⟨rfl, rfl⟩ | ⟨rfl, rfl⟩ | ⟨rfl, rfl⟩
    · exact Json.rel_alternative "record" readKind? Kind.record
        (respects_readList? "fields" respects_readField?)
        (fun _ => rfl) (fun _ _ => congrArg Kind.record) change
    · exact Json.rel_alternative "tuple" readKind? Kind.tuple
        (respects_readList? "types" respects_readRef?)
        (fun _ => rfl) (fun _ _ => congrArg Kind.tuple) change
    · exact Json.rel_alternative "variant" readKind? Kind.variant
        (respects_readList? "cases" respects_readCase?)
        (fun _ => rfl) (fun _ _ => congrArg Kind.variant) change
    · exact Json.rel_alternative "option" readKind? Kind.option respects_readRef?
        (fun _ => rfl) (fun _ _ => congrArg Kind.option) change
    · exact respects_readResult? change
    · exact Json.rel_alternative "list" readKind? Kind.list respects_readRef?
        (fun _ => rfl) (fun _ _ => congrArg Kind.list) change
    · exact Json.rel_alternative "future" readKind? Kind.future respects_nullable_readRef?
        (fun _ => rfl) (fun _ _ => congrArg Kind.future) change
    · exact Json.rel_alternative "stream" readKind? Kind.stream respects_nullable_readRef?
        (fun _ => rfl) (fun _ _ => congrArg Kind.stream) change
    · exact Json.rel_alternative "type" readKind? Kind.synonym respects_readRef?
        (fun _ => rfl) (fun _ _ => congrArg Kind.synonym) change

theorem respects_readType? : Respects OlderType TypeRecord.modern readType? := by
  intro _ _ change
  refine Json.rel_bind (Json.rel_fields? change) fun fields others same => ?_
  unfold docsOf? stabilityOf? Json.Fields.nullable?
  rw [Json.optional?_congr (same.kept "name" (by decide)),
    Json.optional?_congr (same.kept "owner" (by decide)),
    Json.optional?_congr (same.kept "docs" (by decide)),
    Json.optional?_congr (same.kept "stability" (by decide))]
  refine Json.rel_bind_same fun name => ?_
  refine Json.rel_bind (Json.rel_required? respects_readKind? (same.changed (by simp)))
    fun _ _ kind => ?_
  refine Json.rel_bind_same fun owner => Json.rel_bind_same fun docs =>
    Json.rel_bind_same fun stability => ?_
  exact .some (congrArg (TypeRecord.mk name · owner docs stability) kind)

end Document

end WitGraph
