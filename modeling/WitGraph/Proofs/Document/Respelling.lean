/-
**Documents in other forms.**

What is read of a function, an interface, a world and a whole document has the same modern form
whatever form their parts have (`respects_readFunction?` to `respects_ofJson?`). So a document is
accepted in all of its forms or in none, and as the same graph (`ofSymbols_respelled`).
-/

import WitGraph.Proofs.Document.OlderForms
import WitGraph.Proofs.Document.Plain

namespace WitGraph

open Json (Fields Alike Respects InItems InEntries)

namespace Document

/-! ### Functions -/

/-- What is read of a result without a name. -/
theorem readParam?_of_isUnnamed {type result : Json} (unnamed : IsUnnamed type result) :
    readParam? result = (readRef? type).map (Param.mk "") := by
  obtain ⟨fields, areFields, isType, isEmpty⟩ := unnamed
  have name : fields.optional? "name" Json.text? "" = some "" := by
    unfold Fields.optional?
    cases found : fields.lookup "name" with
    | none => rfl
    | some name => rw [isEmpty name found]; rfl
  rw [readParam?, areFields]
  simp only [Option.bind_eq_bind, Option.bind_some, name, Fields.required?, isType]
  exact Option.map_eq_bind.symm

/-- The result and the list of results among some fields. -/
def resultsOf? (fields : Fields) : Option (Option Ref × Option (List (Param Ref))) := do
  return (← fields.nullable? "result" readRef?, ← fields.nullable? "results" (Json.items? readParam?))

/-- The fields of functions that have the same modern form. -/
structure FunctionFields (fields others : Fields) : Prop where
  kept : ∀ name ∈ ["name", "kind", "docs", "stability"], fields.lookup name = others.lookup name
  params : Option.Rel (Alike (List.map Param.modern))
    (fields.optional? "params" (Json.items? readParam?) [])
    (others.optional? "params" (Json.items? readParam?) [])
  results : Option.Rel (Alike fun results => modernResults results.1 results.2) (resultsOf? fields)
    (resultsOf? others)

theorem rel_bind_results {γ δ : Type} {after : γ → δ → Prop} {fields others : Fields}
    {next : Option Ref → Option (List (Param Ref)) → Option γ}
    {otherNext : Option Ref → Option (List (Param Ref)) → Option δ}
    (same : FunctionFields fields others)
    (step : ∀ results otherResults : Option Ref × Option (List (Param Ref)),
      modernResults results.1 results.2 = modernResults otherResults.1 otherResults.2 →
      Option.Rel after (next results.1 results.2) (otherNext otherResults.1 otherResults.2)) :
    Option.Rel after
      (fields.nullable? "result" readRef? >>= fun result =>
        fields.nullable? "results" (Json.items? readParam?) >>= fun results => next result results)
      (others.nullable? "result" readRef? >>= fun result =>
        others.nullable? "results" (Json.items? readParam?) >>= fun results =>
          otherNext result results) := by
  have together (fields : Fields) {ε : Type}
      (next : Option Ref → Option (List (Param Ref)) → Option ε) :
      (fields.nullable? "result" readRef? >>= fun result =>
        fields.nullable? "results" (Json.items? readParam?) >>= fun results => next result results)
        = resultsOf? fields >>= fun results => next results.1 results.2 := by
    unfold resultsOf?
    cases fields.nullable? "result" readRef? <;>
      cases fields.nullable? "results" (Json.items? readParam?) <;> rfl
  rw [together, together]
  exact Json.rel_bind same.results step

/-- Functions have the same modern form if their fields are so. -/
theorem rel_readFunction? {value other : Json}
    (pair : Option.Rel FunctionFields (value.fields? functionFields) (other.fields? functionFields)) :
    Option.Rel (Alike FunctionRecord.modern) (readFunction? value) (readFunction? other) := by
  refine Json.rel_bind pair fun fields others same => ?_
  unfold docsOf? stabilityOf?
  rw [Json.required?_congr (same.kept "name" (by decide)),
    Json.required?_congr (same.kept "kind" (by decide)),
    Json.optional?_congr (same.kept "docs" (by decide)),
    Json.optional?_congr (same.kept "stability" (by decide))]
  refine Json.rel_bind_same fun name => Json.rel_bind_same fun kind => ?_
  refine Json.rel_bind same.params fun _ _ params => ?_
  refine rel_bind_results same fun _ _ results => ?_
  refine Json.rel_bind_same fun docs => Json.rel_bind_same fun stability => .some ?_
  simp only [Alike] at params
  simp only [Alike, FunctionRecord.modern, params, results]

/-! #### Fields in another form -/

section FunctionForms

variable {fields others : Fields}

/-- The field is absent or null. -/
def IsNothing (field : Option Json) : Prop := field = none ∨ field = some .null

theorem nullable?_of_isNothing {α : Type} {name : String} (read : Json → Option α)
    (nothing : IsNothing (fields.lookup name)) : fields.nullable? name read = some none := by
  unfold Fields.nullable? Fields.optional?
  rcases nothing with absent | null
  · rw [absent]
  · rw [null]
    rfl

theorem functionFields_of_inFields (same : Json.FieldsRel
    [("params", InItems OlderParam), ("result", OlderRef), ("results", InItems OlderParam)] fields
    others) : FunctionFields fields others where
  kept name listed := same.kept name (by
    have apart : ∀ name ∈ ["name", "kind", "docs", "stability"],
      name ∉ ["params", "result", "results"] := by decide
    exact apart name listed)
  params := Json.rel_optional? (Json.respects_items? respects_readParam?) [] (same.changed (by simp))
  results := by
    have present {value other : Json} (change : InItems OlderParam value other) :
        value ≠ .null ∧ other ≠ .null := by
      cases change
      exact ⟨Json.noConfusion, Json.noConfusion⟩
    refine Json.rel_bind (Json.rel_optional? respects_nullable_readRef? none (same.changed (by simp)))
      fun _ _ result => ?_
    refine Json.rel_bind (Json.rel_optional?
        ((Json.respects_items? respects_readParam?).nullable fun _ _ => present) none
        (same.changed (by simp))) fun _ _ results => ?_
    exact .some (congrArg₂ singleResult result results)

theorem functionFields_of_isNothing (key : String) (isKey : key = "result" ∨ key = "results")
    (kept : ∀ name, name ≠ key → fields.lookup name = others.lookup name)
    (nothing : IsNothing (fields.lookup key)) (otherNothing : IsNothing (others.lookup key)) :
    FunctionFields fields others := by
  have params : "params" ≠ key := by rcases isKey with rfl | rfl <;> decide
  have nullable {α : Type} (name : String) (read : Json → Option α) :
      fields.nullable? name read = others.nullable? name read := by
    by_cases same : name = key
    · subst same
      rw [nullable?_of_isNothing read nothing, nullable?_of_isNothing read otherNothing]
    · exact Json.optional?_congr (kept name same) _ none
  refine ⟨fun name listed => kept name ?_, ?_, ?_⟩
  · rintro rfl
    rcases isKey with rfl | rfl <;> revert listed <;> decide
  · rw [Json.optional?_congr (kept "params" params)]
    exact Json.rel_alike_refl _
  · unfold resultsOf?
    rw [nullable, nullable]
    exact Json.rel_alike_refl _

/-- A result becomes a list with one result without a name. -/
theorem functionFields_of_isUnnamed {type result : Json} (isType : type ≠ .null)
    (unnamed : IsUnnamed type result)
    (kept : ∀ name, name ≠ "result" → name ≠ "results" → fields.lookup name = others.lookup name)
    (isResult : fields.lookup "result" = some type) (noResults : IsNothing (fields.lookup "results"))
    (noResult : IsNothing (others.lookup "result"))
    (isResults : others.lookup "results" = some (.array [result])) :
    FunctionFields fields others := by
  have single : resultsOf? fields = readRef? type >>= fun ref => some (some ref, none) := by
    have result : fields.nullable? "result" readRef? = Json.nullable? readRef? type := by
      unfold Fields.nullable? Fields.optional?
      rw [isResult]
    rw [resultsOf?, result, nullable?_of_isNothing _ noResults, Json.nullable?_of_ne_null _ isType]
    cases readRef? type <;> rfl
  have listed : resultsOf? others = readRef? type >>= fun ref => some (none, some [⟨"", ref⟩]) := by
    have results : others.nullable? "results" (Json.items? readParam?)
        = ([result].mapM readParam?).map some := by
      unfold Fields.nullable? Fields.optional?
      rw [isResults]
      rfl
    rw [resultsOf?, nullable?_of_isNothing _ noResult, results, List.mapM_cons, List.mapM_nil,
      readParam?_of_isUnnamed unnamed]
    cases readRef? type <;> rfl
  refine ⟨fun name listed => kept name ?_ ?_, ?_, ?_⟩
  · rintro rfl
    revert listed
    decide
  · rintro rfl
    revert listed
    decide
  · rw [Json.optional?_congr (kept "params" (by decide) (by decide))]
    exact Json.rel_alike_refl _
  · rw [single, listed]
    cases readRef? type with
    | none => exact .none
    | some ref => exact .some rfl

end FunctionForms

/-- Related to one and the same. -/
theorem rel_of_base {α β γ : Type} {left : α → β → Prop} {right : α → γ → Prop} {base : Option α}
    {first : Option β} {second : Option γ} (toFirst : Option.Rel left base first)
    (toSecond : Option.Rel right base second) :
    Option.Rel (fun value other => ∃ common, left common value ∧ right common other) first second := by
  cases toFirst with
  | none =>
    cases toSecond
    exact .none
  | some holds =>
    cases toSecond with
    | some otherHolds => exact .some ⟨_, holds, otherHolds⟩

theorem respects_readFunction? : Respects OlderFunction FunctionRecord.modern readFunction? := by
  intro _ _ change
  refine rel_readFunction? ?_
  cases change with
  | fields change => exact Json.rel_imp (Json.rel_fields? change) functionFields_of_inFields
  | nullMember isKey absent =>
    rename_i before after key
    have known : key ∈ functionFields := by rcases isKey with rfl | rfl <;> decide
    refine Json.rel_imp (Json.rel_fields?_insert known absent) ?_
    rintro fields others ⟨missing, present, same⟩
    exact functionFields_of_isNothing key isKey same (.inl missing) (.inr present)
  | @results before after first last type result isType unnamed others noResult noResults =>
    have known : "result" ∈ functionFields ∧ "results" ∈ functionFields := by decide
    have listed : Option.Rel (Json.WithField "results" (.array [result]))
        ((Json.object (before ++ after)).fields? functionFields)
        ((Json.object (first ++ (some "results", .array [result]) :: last)).fields? functionFields) := by
      rw [← others] at noResults ⊢
      exact Json.rel_fields?_insert known.2 noResults
    refine Json.rel_imp (rel_of_base (Json.rel_fields?_insert known.1 noResult) listed) ?_
    rintro fields others ⟨base, ⟨missing, isResult, same⟩, ⟨otherMissing, isResults, otherSame⟩⟩
    refine functionFields_of_isUnnamed isType unnamed (fun name first second => ?_) isResult
      (.inl ?_) (.inl ?_) isResults
    · rw [← same name first, otherSame name second]
    · rw [← same "results" (by decide), otherMissing]
    · rw [← otherSame "result" (by decide), missing]
  | resultsItem isType unnamed =>
    refine Json.rel_fields?_array rfl ?_
    refine functionFields_of_isUnnamed isType unnamed (fun name first second => ?_) rfl (.inr rfl)
      (.inr rfl) rfl
    have notResult : (name == "result") = false := by simpa using first
    have notResults : (name == "results") = false := by simpa using second
    simp only [functionFields, List.zip_cons_cons, List.lookup_cons, notResult, notResults]
  | @nullItem name kind params results short =>
    match results, short with
    | [], _ =>
      refine .some (functionFields_of_isNothing "result" (.inl rfl) (fun other apart => ?_) (.inl rfl)
        (.inr rfl))
      have notResult : (other == "result") = false := by simpa using apart
      simp [functionFields, List.lookup_cons, notResult]
    | [result], _ =>
      refine .some (functionFields_of_isNothing "results" (.inr rfl) (fun other apart => ?_) (.inl rfl)
        (.inr rfl))
      have notResults : (other == "results") = false := by simpa using apart
      simp [functionFields, List.lookup_cons, notResults]

/-! ### Interfaces and worlds -/

theorem respects_readInterface? :
    Respects OlderInterface InterfaceRecord.modern readInterface? := by
  intro _ _ change
  refine Json.rel_bind (Json.rel_fields? change) fun fields others same => ?_
  unfold docsOf? stabilityOf? Fields.nullable?
  rw [Json.optional?_congr (same.kept "name" (by decide)),
    Json.optional?_congr (same.kept "types" (by decide)),
    Json.optional?_congr (same.kept "package" (by decide)),
    Json.optional?_congr (same.kept "docs" (by decide)),
    Json.optional?_congr (same.kept "stability" (by decide))]
  refine Json.rel_bind_same fun name => Json.rel_bind_same fun types => ?_
  refine Json.rel_bind (Json.rel_optional? (Json.respects_readMap? respects_readFunction?) {}
    (same.changed (by simp))) fun _ _ functions => ?_
  refine Json.rel_bind_same fun package => Json.rel_bind_same fun docs =>
    Json.rel_bind_same fun stability => ?_
  exact .some (congrArg (InterfaceRecord.mk name types · package docs stability) functions)

theorem isInRange_of_index? {position : Number} {index : Nat} (found : position.index? = some index) :
    position.isInRange = true := by
  unfold Number.index? at found
  unfold Number.isInRange
  by_cases signed : position.negative || !position.isInteger
  · rw [if_pos signed] at found
    cases found
  · rw [if_neg signed] at found
    by_cases fits : Nat.ofDigitChars 10 position.whole 0 < Number.wordLimit
    · simp_all
    · simp [fits] at found

/-- An object with a number among its members can be held if the number and the other members can. -/
theorem isSelfContained_middle {before after : List (Contents × Json)} {name : String}
    {position : Number} {depth : Nat}
    (others : ∀ member ∈ before ++ after, ∃ key, member.1 = some key ∧ member.2.isSelfContained depth) :
    (Json.object (before ++ (some name, .number position) :: after)).isSelfContained (depth + 1)
      = position.isInRange := by
  have fits : ∀ member ∈ before ++ after,
      (member.1.isSome && member.2.isSelfContained depth) = true := by
    intro member inside
    obtain ⟨key, isKey, fits⟩ := others member inside
    rw [isKey, fits]
    rfl
  have first := List.all_eq_true.mpr fun member inside => fits member (List.mem_append_left _ inside)
  have rest := List.all_eq_true.mpr fun member inside => fits member (List.mem_append_right _ inside)
  rw [Json.isSelfContained, List.all_append, List.all_cons, first, rest]
  simp [Json.isSelfContained]

/-- A bare position means the same as an object without a mark of stability. -/
theorem readInterfaceRef?_bare {before after : List (Contents × Json)} {position : Number}
    (unknown : ∀ member ∈ before ++ after, ∃ key, member.1 = some key ∧ key ≠ "id"
      ∧ key ≠ "stability" ∧ member.2.isSelfContained (maxDepth - itemDepth - 1)) :
    readInterfaceRef? (.object (before ++ (some "id", .number position) :: after))
      = readInterfaceRef? (.number position) := by
  have nothing : (Json.object (before ++ after)).fields? ["id", "stability"] = some [] := by
    refine Json.fields?_of_unknown fun member inside => ?_
    obtain ⟨key, isKey, notId, notStability, -⟩ := unknown member inside
    exact ⟨key, isKey, by simp [notId, notStability]⟩
  have isNew : ∀ member ∈ before ++ after, member.1 ≠ some "id" := by
    intro member inside isId
    obtain ⟨key, isKey, notId, -⟩ := unknown member inside
    exact notId (Option.some.inj (isKey.symm.trans isId))
  have pair : Option.Rel (Json.WithField "id" (.number position))
      ((Json.object (before ++ after)).fields? ["id", "stability"])
      ((Json.object (before ++ (some "id", .number position) :: after)).fields? ["id", "stability"]) :=
    Json.rel_fields?_insert (by decide) isNew
  rw [nothing] at pair
  obtain ⟨fields, areFields, -, isId, others⟩ := Json.exists_of_rel_some pair
  have noStability : fields.lookup "stability" = none := (others "stability" (by decide)).symm
  have depth : maxDepth - itemDepth = maxDepth - itemDepth - 1 + 1 := rfl
  have whole : (Json.object (before ++ (some "id", .number position) :: after)).isSelfContained
      (maxDepth - itemDepth) = position.isInRange := by
    rw [depth]
    refine isSelfContained_middle fun member inside => ?_
    obtain ⟨key, isKey, -, -, fits⟩ := unknown member inside
    exact ⟨key, isKey, fits⟩
  have read : readInterfaceRef? (.object (before ++ (some "id", .number position) :: after))
      = if position.isInRange then readInterfaceRef? (.number position) else none := by
    conv_lhs => rw [readInterfaceRef?, whole, areFields]
    simp only [Option.bind_eq_bind, Option.bind_some, Fields.required?, isId, stabilityOf?,
      Fields.optional?, noStability]
    rfl
  rw [read]
  split
  · rfl
  · rename_i outOfRange
    cases found : position.index? with
    | none =>
      rw [readInterfaceRef?, found]
      rfl
    | some index => exact absurd (isInRange_of_index? found) outOfRange

theorem respects_readItem? : Respects OlderItem ItemRecord.modern readItem? := by
  rintro _ _ ⟨listed, change⟩
  simp only [List.mem_cons, Prod.mk.injEq, List.not_mem_nil, or_false] at listed
  rcases listed with ⟨rfl, rfl⟩ | ⟨rfl, rfl⟩ | ⟨rfl, rfl⟩
  · obtain ⟨unknown⟩ := change
    have isRead (contents : Json) :
        readItem? (.record [("interface", contents)]) = readInterfaceRef? contents := rfl
    rw [isRead, isRead, readInterfaceRef?_bare unknown]
    exact Json.rel_alike_refl _
  · exact Json.rel_alternative "function" readItem? ItemRecord.function respects_readFunction?
      (fun _ => rfl) (fun _ _ => congrArg ItemRecord.function) change
  · exact Json.rel_alternative "type" readItem? ItemRecord.type respects_readRef? (fun _ => rfl)
      (fun _ _ => congrArg ItemRecord.type) change

theorem respects_readWorld? : Respects OlderWorld WorldRecord.modern readWorld? := by
  intro _ _ change
  refine Json.rel_bind (Json.rel_fields? change) fun fields others same => ?_
  unfold docsOf? stabilityOf? Fields.nullable?
  rw [Json.required?_congr (same.kept "name" (by decide)),
    Json.optional?_congr (same.kept "package" (by decide)),
    Json.optional?_congr (same.kept "docs" (by decide)),
    Json.optional?_congr (same.kept "stability" (by decide))]
  refine Json.rel_bind_same fun name => ?_
  refine Json.rel_bind (Json.rel_optional? (Json.respects_readMap? respects_readItem?) {}
    (same.changed (by simp))) fun _ _ imports => ?_
  refine Json.rel_bind (Json.rel_optional? (Json.respects_readMap? respects_readItem?) {}
    (same.changed (by simp))) fun _ _ exports => ?_
  refine Json.rel_bind_same fun package => Json.rel_bind_same fun docs =>
    Json.rel_bind_same fun stability => ?_
  exact .some (congrArg₂ (WorldRecord.mk name · · package docs stability) imports exports)

/-! ### Documents -/

theorem respects_ofJson? : Respects OlderDocument modern ofJson? := by
  intro _ _ change
  refine Json.rel_bind (Json.rel_fields? change) fun fields others same => ?_
  rw [Json.optional?_congr (same.kept "packages" (by decide))]
  refine Json.rel_bind (Json.rel_optional? (Json.respects_items? respects_readWorld?) []
    (same.changed (by simp))) fun _ _ worlds => ?_
  refine Json.rel_bind (Json.rel_optional? (Json.respects_items? respects_readInterface?) []
    (same.changed (by simp))) fun _ _ interfaces => ?_
  refine Json.rel_bind (Json.rel_optional? (Json.respects_items? respects_readType?) []
    (same.changed (by simp))) fun _ _ types => ?_
  refine Json.rel_bind_same fun packages => .some ?_
  show Document.mk _ _ _ packages = Document.mk _ _ _ packages
  rw [worlds, interfaces, types]

/-- Documents that are the same but for the forms of their parts have the same modern form. -/
theorem map_modern_ofJson? {json other : Json} (respelled : Relation.EqvGen OlderDocument json other) :
    (ofJson? json).map modern = (ofJson? other).map modern := by
  induction respelled with
  | rel _ _ change => exact Json.rel_alike_iff.mp (respects_ofJson? change)
  | refl _ => rfl
  | symm _ _ _ ih => exact ih.symm
  | trans _ _ _ _ _ first second => exact first.trans second

/-- **A document is accepted in all of its forms or in none, and as the same graph.** -/
theorem ofSymbols_respelled {symbols others : List Text.Symbol} {json other : Json}
    (parsed : Json.parse? symbols = some json) (otherParsed : Json.parse? others = some other)
    (respelled : Relation.EqvGen OlderDocument json other) (graph : Graph) :
    Graph.ofSymbols symbols = .ok graph ↔ Graph.ofSymbols others = .ok graph := by
  have forms := Json.rel_alike_iff.mpr (map_modern_ofJson? respelled)
  rw [Graph.ofSymbols, Graph.ofSymbols, ofSymbols?, ofSymbols?, parsed, otherParsed,
    Option.bind_some, Option.bind_some]
  generalize ofJson? json = first at forms
  generalize ofJson? other = second at forms
  cases forms with
  | none => exact Iff.rfl
  | some same =>
    show link _ = .ok graph ↔ link _ = .ok graph
    rw [← link_modern_eq_ok_iff, same, link_modern_eq_ok_iff]

namespace BothForms

/-- A document with the parts that have an older form. -/
def document (reference function number kind : Json) : Json := .record [
  ("worlds", .array [.record [("name", .text "w"),
    ("imports", .record [("interface-0", .record [("interface", reference)])])]]),
  ("interfaces", .array [.record [("functions", .record [("f", function)])]]),
  ("types", .array [.record [("kind", .record [("list", number)])], .record [("kind", kind)]])]

/-- A function with a statement of its result. -/
def function (statement : String × Json) : Json :=
  .record [("name", .text "f"), ("kind", .text "freestanding"), statement]

/-- The document in modern form. -/
def modern : Json :=
  document (.record [("id", .nat 0)]) (function ("result", .text "f64")) (.text "f32")
    (.text "error-context")

/-- The document in older form. -/
def older : Json :=
  document (.nat 0) (function ("results", .array [.record [("type", .text "f64")]])) (.text "float32")
    (.text "errorcontext")

/-- The graph that the document describes. -/
def graph : Graph where
  worlds := #[{ name := "w", imports := .ofList [(.interface ⟨0⟩, .interface ⟨0⟩ .unknown)] }]
  interfaces := #[{
    functions := .ofList [("f", { name := "f", kind := .freestanding, params := []
                                  results := .anonymous (.primitive .f64) })] }]
  types := #[{ kind := .list (.primitive .f32) }, { kind := .errorContext }]

variable {reference reference' function function' number number' kind kind' : Json}

theorem older_reference (change : OlderInterfaceRef reference reference') :
    OlderDocument (document reference function number kind)
      (document reference' function number kind) := by
  refine .middle [] [(some "interfaces", _), (some "types", _)] (.head _) ?_
  refine InItems.middle [] [] (.middle [(some "name", _)] [] (.head _) ?_)
  exact InEntries.middle [] [] _ (.object (.head _) change)

theorem older_function (change : OlderFunction function function') :
    OlderDocument (document reference function number kind)
      (document reference function' number kind) := by
  refine .middle [(some "worlds", _)] [(some "types", _)] (.tail _ (.head _)) ?_
  refine InItems.middle [] [] (.middle [] [] (.head _) ?_)
  exact InEntries.middle [] [] _ change

theorem older_number (change : OlderRef number number') :
    OlderDocument (document reference function number kind)
      (document reference function number' kind) := by
  refine .middle [(some "worlds", _), (some "interfaces", _)] [] (.tail _ (.tail _ (.head _))) ?_
  refine InItems.middle [] [_] (.middle [] [] (.head _) ?_)
  exact .alternative (.object (by simp [olderKinds]) change)

theorem older_kind (change : OlderKind kind kind') :
    OlderDocument (document reference function number kind)
      (document reference function number kind') := by
  refine .middle [(some "worlds", _), (some "interfaces", _)] [] (.tail _ (.tail _ (.head _))) ?_
  exact InItems.middle [_] [] (.middle [] [] (.head _) change)

theorem respelled : Relation.EqvGen OlderDocument modern older := by
  have reference : OlderInterfaceRef (.record [("id", .nat 0)]) (.nat 0) := @.bare [] [] _ (by simp)
  have result : IsUnnamed (.text "f64") (.record [("type", .text "f64")]) :=
    ⟨_, rfl, rfl, by simp [List.lookup_cons]⟩
  have function : OlderFunction (function ("result", .text "f64"))
      (function ("results", .array [.record [("type", .text "f64")]])) :=
    @OlderFunction.results [(some "name", _), (some "kind", _)] [] [(some "name", _), (some "kind", _)]
      [] _ _ Json.noConfusion result rfl (by simp) (by simp)
  exact .trans _ _ _ (.rel _ _ (older_reference reference)) <|
    .trans _ _ _ (.rel _ _ (older_function function)) <|
    .trans _ _ _ (.rel _ _ (older_number .f32)) (.rel _ _ (older_kind .errorContext))

theorem isPlain_document (isReference : reference.IsPlain) (isFunction : function.IsPlain)
    (isNumber : number.IsPlain) (isKind : kind.IsPlain) :
    (document reference function number kind).IsPlain := by
  refine .members (.cons (.array ?_) (.cons (.array ?_) (.cons (.array ?_) .nil)))
  · rw [List.forall_mem_singleton]
    exact .members (.cons (.text _) (.cons (.alternative (.alternative isReference)) .nil))
  · rw [List.forall_mem_singleton]
    exact .alternative (.alternative isFunction)
  · rw [List.forall_mem_cons, List.forall_mem_singleton]
    exact ⟨.alternative (.alternative isNumber), .alternative isKind⟩

theorem isPlain_function {statement : String × Json} (isStatement : statement.2.IsPlain) :
    (BothForms.function statement).IsPlain :=
  .members (.cons (.text _) (.cons (.text _) (.cons isStatement .nil)))

theorem isPlain_modern : modern.IsPlain :=
  isPlain_document (.alternative (.nat _)) (isPlain_function (.text _)) (.text _) (.text _)

theorem isPlain_older : older.IsPlain := by
  refine isPlain_document (.nat _) (isPlain_function (.array ?_)) (.text _) (.text _)
  rw [List.forall_mem_singleton]
  exact .alternative (.text _)

theorem accepted : Graph.ofText (modern.render Json.indented) = .ok graph := by
  have parsed := Json.parse?_render Json.indented_isBlank isPlain_modern
  rw [Graph.ofText, Graph.ofSymbols, ofSymbols?, parsed]
  decide +kernel

end BothForms

theorem ofSymbols_respelled_bothForms :
    Graph.ofText (BothForms.modern.render Json.indented) = .ok BothForms.graph
      ∧ Relation.EqvGen OlderDocument BothForms.modern BothForms.older
      ∧ Graph.ofText (BothForms.older.render Json.indented) = .ok BothForms.graph :=
  ⟨BothForms.accepted, BothForms.respelled,
    (ofSymbols_respelled (Json.parse?_render Json.indented_isBlank BothForms.isPlain_modern)
      (Json.parse?_render Json.indented_isBlank BothForms.isPlain_older) BothForms.respelled
      BothForms.graph).mp BothForms.accepted⟩

end Document

end WitGraph
