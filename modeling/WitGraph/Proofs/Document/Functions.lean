/-
**Functions are denoted and restored.**

The results of a function are written in one of three ways and may have been read from others, such
as a list with one result without a name. `statesResults_anonymous` and `statesResults_named` say when
they are read back (`StatesResults`), and `restores_results` that they are if they have been read.
`denotes_function` and `restores_function` put the parts of a function together.
-/

import WitGraph.Proofs.Document.Restoring

namespace WitGraph

/-- The parameter with its reference replaced. -/
def Param.mapM {m : Type → Type} [Monad m] {ρ σ : Type} (ref : ρ → m σ) (param : Param ρ) :
    m (Param σ) := do
  return { name := param.name, type := ← ref param.type }

namespace Document

open Json (Fields)

/-! ### Parameters -/

/-- A parameter is read back from its text, with or without a name. -/
theorem readParam?_toJson {param : Param TypeRef} {ref : Ref}
    (readAgain : readRef? param.type.toJson = some ref) :
    readParam? param.toJson = some ⟨param.name, ref⟩ := by
  obtain ⟨name, type⟩ := param
  by_cases unnamed : name = ""
  · have fields := Json.fields?_record ["name", "type"] ["type"] [("type", type.toJson)]
      (List.Sublist.refl _) (by simp) (by simp)
    simp [readParam?, Param.toJson, unnamed, fields, Fields.optional?, Fields.required?,
      List.lookup_cons, readAgain]
  · have fields := Json.fields?_record ["name", "type"] ["name", "type"]
      [("name", .text name), ("type", type.toJson)] (List.Sublist.refl _) (by simp) (by simp)
    simp [readParam?, Param.toJson, unnamed, fields, Fields.optional?, Fields.required?,
      List.lookup_cons, readAgain, Json.text?_text]

theorem exists_of_readParam? {json : Json} {param : Param Ref}
    (found : readParam? json = some param) : ∃ json, readRef? json = some param.type := by
  simp only [readParam?, Option.bind_eq_bind, Option.bind_eq_some_iff, Option.pure_def,
    Option.some.injEq] at found
  obtain ⟨_, -, name, -, ref, isRef, rfl⟩ := found
  exact Json.exists_of_required? isRef

variable {document rewritten : Document}

theorem denotes_param {param : Param TypeRef}
    (type : Denotes readRef? document.linkRef param.type.toJson param.type) :
    Denotes readParam? (Param.mapM document.linkRef) param.toJson param := by
  obtain ⟨ref, readType, linked⟩ := type
  exact ⟨⟨param.name, ref⟩, readParam?_toJson readType,
    Success.bind_eq_ok_iff.mpr ⟨param.type, linked, rfl⟩⟩

theorem denotes_params {params : List (Param TypeRef)}
    (addressed : ∀ id, .defined id ∈ params.map Param.type → document.Addresses id.item) :
    Denotes (Json.items? readParam?) document.linkParams (.array (params.map Param.toJson)) params :=
  Denotes.items fun param inside => denotes_param <| denotes_ref fun id same =>
    addressed id (List.mem_map.mpr ⟨param, inside, same⟩)

/-! ### Kinds of functions -/

theorem denotes_functionKind {kind : FunctionKind TypeId}
    (addressed : ∀ id, kind.resource? = some id → document.Addresses id.item) :
    Denotes readFunctionKind? document.linkFunctionKind kind.toJson kind := by
  cases kind with
  | freestanding => exact ⟨.freestanding, rfl, rfl⟩
  | method id | static id | constructor id =>
    exact (denotes_id (addressed id rfl)).whole rfl fun _ => rfl

/-! ### Results -/

/-- A list stands for itself, unless it has only one result and that has no name. -/
theorem Results.ofList_cases (params : List (Param TypeRef)) :
    (∃ type, params = [⟨"", type⟩] ∧ Results.ofList params = .anonymous type)
      ∨ Results.ofList params = .named params := by
  unfold Results.ofList
  split
  · rename_i param
    obtain ⟨name, type⟩ := param
    by_cases unnamed : name = ""
    · subst unnamed
      exact Or.inl ⟨type, rfl, rfl⟩
    · exact Or.inr (if_neg unnamed)
  · exact Or.inr rfl

/-- The members that state the results of a function are read and linked to the results. -/
def StatesResults (document : Document) (value : Results) : Prop :=
  ∃ result results, Fields.nullable? value.members "result" readRef? = some result
    ∧ Fields.nullable? value.members "results" (Json.items? readParam?) = some results
    ∧ document.linkResults result results = .ok value

theorem statesResults_anonymous {type : TypeRef}
    (denotes : Denotes readRef? document.linkRef type.toJson type) :
    document.StatesResults (.anonymous type) := by
  obtain ⟨ref, readType, linked⟩ := denotes
  have present : Json.nullable? readRef? type.toJson = some (some ref) :=
    Json.nullable?_of_read rfl readType
  refine ⟨some ref, none, ?_, ?_, Success.bind_eq_ok_iff.mpr ⟨type, linked, rfl⟩⟩
  · simp [Results.members, Fields.nullable?, Fields.optional?, present]
  · simp [Results.members, Fields.nullable?, Fields.optional?, List.lookup_cons]

/-- A list of results that does not stand for one without a name is read back. -/
theorem statesResults_named {params : List (Param TypeRef)}
    (denotes : Denotes (Json.items? readParam?) document.linkParams
      (.array (params.map Param.toJson)) params)
    (named : Results.ofList params = .named params) : document.StatesResults (.named params) := by
  obtain ⟨records, readParams, linked⟩ := denotes
  have present : Json.nullable? (Json.items? readParam?) (.array (params.map Param.toJson))
      = some (some records) := Json.nullable?_of_read rfl readParams
  cases params with
  | nil => exact ⟨none, none, rfl, rfl, rfl⟩
  | cons first rest =>
    refine ⟨none, some records, ?_, ?_, Success.bind_eq_ok_iff.mpr ⟨_, linked, ?_⟩⟩
    · simp [Results.members, Fields.nullable?, Fields.optional?, List.lookup_cons]
    · simpa [Results.members, Fields.nullable?, Fields.optional?] using present
    · rw [named]
      rfl

/-! ### Functions -/

/-- A function is denoted if its parts are. -/
theorem denotes_function {function : Function}
    (kind : Denotes readFunctionKind? document.linkFunctionKind function.kind.toJson function.kind)
    (params : Denotes (Json.items? readParam?) document.linkParams
      (.array (function.params.map Param.toJson)) function.params)
    (results : document.StatesResults function.results) (normal : function.stability.IsNormal) :
    Denotes readFunction? document.linkFunction function.toJson function := by
  obtain ⟨name, kindValue, paramValues, resultsValue, docs, stability⟩ := function
  obtain ⟨kindRecord, readKind, linkedKind⟩ := kind
  obtain ⟨paramRecords, readParams, linkedParams⟩ := params
  obtain ⟨result, resultRecords, readResult, readResults, linkedResults⟩ := results
  refine ⟨⟨name, kindRecord, paramRecords, result, resultRecords, docs, stability⟩, ?_, ?_⟩
  · obtain ⟨fields, isFields, isDocs, isMark, others⟩ :=
      read_annotated
        (Function.toJson ⟨name, kindValue, paramValues, resultsValue, docs, stability⟩)
        ["name", "kind", "params", "result", "results", "docs", "stability"]
        ([("name", .text name), ("kind", kindValue.toJson),
          ("params", .array (paramValues.map Param.toJson))] ++ resultsValue.members) docs []
        normal (by simp [Function.toJson])
        (by rcases resultsValue with (_ | ⟨_, _⟩) | _ <;> simp [Results.members])
        (by rcases resultsValue with (_ | ⟨_, _⟩) | _ <;> simp [Results.members])
    simp only [Fields.nullable?, Fields.optional?] at readResult readResults
    simp [readFunction?, isFields, isDocs, isMark, Fields.required?, Fields.nullable?,
      Fields.optional?, others, List.lookup_cons, readKind, readParams, readResult, readResults,
      Json.text?_text]
  · exact Success.bind_eq_ok_iff.mpr ⟨kindValue, linkedKind,
      Success.bind_eq_ok_iff.mpr ⟨paramValues, linkedParams,
        Success.bind_eq_ok_iff.mpr ⟨resultsValue, linkedResults, rfl⟩⟩⟩

/-! ### What has been read -/

variable (sameSize : ∀ arena, rewritten.size arena = document.size arena)
include sameSize

theorem restores_param :
    Restores readParam? (Param.mapM document.linkRef) (Param.mapM rewritten.linkRef)
      Param.toJson := by
  intro json record param found linked
  obtain ⟨type, linkedType, rfl⟩ := Success.bind_return_eq_ok_iff.mp linked
  obtain ⟨_, readType⟩ := exists_of_readParam? found
  exact denotes_param (restores_ref sameSize readType linkedType)

theorem restores_params :
    Restores (Json.items? readParam?) document.linkParams rewritten.linkParams
      fun params => .array (params.map Param.toJson) :=
  (restores_param sameSize).items

theorem restores_functionKind :
    Restores readFunctionKind? document.linkFunctionKind rewritten.linkFunctionKind
      FunctionKind.toJson := by
  intro json record kind found linked
  simp only [readFunctionKind?, Option.bind_eq_bind, Option.bind_eq_some_iff,
    Option.pure_def] at found
  obtain ⟨⟨name, contents⟩, -, found⟩ := found
  split at found
  · split at found
    · cases found
      cases linked
      exact ⟨.freestanding, rfl, rfl⟩
    · cases found
  · exact (restores_id sameSize .type).whole
      (fun _ => rfl) (fun _ => rfl) (fun _ => rfl) found linked
  · exact (restores_id sameSize .type).whole
      (fun _ => rfl) (fun _ => rfl) (fun _ => rfl) found linked
  · exact (restores_id sameSize .type).whole
      (fun _ => rfl) (fun _ => rfl) (fun _ => rfl) found linked
  · cases found

/-- Results are read back, however they have been stated. -/
theorem restores_results {fields : Fields} {result : Option Ref}
    {results : Option (List (Param Ref))} {value : Results}
    (isResult : fields.nullable? "result" readRef? = some result)
    (isResults : fields.nullable? "results" (Json.items? readParam?) = some results)
    (linked : document.linkResults result results = .ok value) : rewritten.StatesResults value := by
  obtain ⟨_, readResult⟩ := Json.exists_of_nullable? isResult
  obtain ⟨_, readResults⟩ := Json.exists_of_nullable? isResults
  unfold linkResults at linked
  split at linked
  · cases linked
  · obtain ⟨type, linkedType, rfl⟩ := Success.bind_return_eq_ok_iff.mp linked
    exact statesResults_anonymous
      (restores_ref sameSize (Json.read_of_nullable? readResult) linkedType)
  · obtain ⟨params, linkedParams, rfl⟩ := Success.bind_return_eq_ok_iff.mp linked
    have readParams := Json.read_of_nullable? readResults
    have denotes := restores_params sameSize readParams linkedParams
    rcases Results.ofList_cases params with ⟨type, rfl, single⟩ | named
    · -- the older spelling of one result without a name
      rw [single]
      obtain ⟨record, isRecord, linkedParam⟩ := Success.exists_of_mem_right
        (Success.mapM_eq_ok_iff.mp linkedParams) (List.mem_singleton_self _)
      obtain ⟨_, linkedType, same⟩ := Success.bind_return_eq_ok_iff.mp linkedParam
      cases congrArg Param.type same
      obtain ⟨_, readRecord⟩ := Json.exists_of_mem_items? readParams isRecord
      obtain ⟨_, readType⟩ := exists_of_readParam? readRecord
      exact statesResults_anonymous (restores_ref sameSize readType linkedType)
    · rw [named]
      exact statesResults_named denotes named
  · cases linked
    exact ⟨none, none, rfl, rfl, rfl⟩

theorem restores_function :
    Restores readFunction? document.linkFunction rewritten.linkFunction Function.toJson := by
  intro json record function found linked
  simp only [readFunction?, Option.bind_eq_bind, Option.bind_eq_some_iff, Option.pure_def,
    Option.some.injEq] at found
  obtain ⟨_, -, name, -, kind, isKind, params, isParams, result, isResult, results, isResults, docs,
    -, stability, isStability, rfl⟩ := found
  obtain ⟨linkedKind, kindLinks, rest⟩ := Success.bind_eq_ok_iff.mp linked
  obtain ⟨linkedParams, paramLinks, rest⟩ := Success.bind_eq_ok_iff.mp rest
  obtain ⟨linkedResults, resultLinks, rfl⟩ := Success.bind_return_eq_ok_iff.mp rest
  obtain ⟨_, readKind⟩ := Json.exists_of_required? isKind
  have noParams : Json.items? readParam? (.array []) = some [] := rfl
  obtain ⟨_, readParams⟩ := Json.exists_of_optional? noParams isParams
  exact denotes_function (restores_functionKind sameSize readKind kindLinks)
    (restores_params sameSize readParams paramLinks)
    (restores_results sameSize isResult isResults resultLinks) (isNormal_of_stabilityOf? isStability)

end Document

end WitGraph
