/-
**Changes within JSON values.**

A `Change` relates a value to one that may stand in its place. `InItems`, `InEntries`, `InFields` and
`InAlternative` make such changes at any number of places within a list, a map, a record and an
alternative. What is read of a part may respect a change of the part, up to a form (`Respects`), and
then what is read of the whole respects the changes within it: `respects_items?`, `respects_entries?`,
and for records `rel_fields?`, from which their fields are read. `rel_fields?_insert` says what one more
member does to a record.
-/

import Mathlib.Logic.Relation
import WitGraph.Proofs.Document.Records
import WitGraph.Proofs.OrderedMap

namespace WitGraph.Json

/-- Which values may stand in place of which. -/
abbrev Change := Json → Json → Prop

/-! ### Changes within a value -/

/-- Some items of a list change. -/
inductive InItems (change : Change) : Change
  | array {items others : List Json} (pairs : List.Forall₂ (Relation.ReflGen change) items others) :
    InItems change (.array items) (.array others)

/-- Some values of a map change. -/
inductive InEntries (change : Change) : Change
  | object {members others : List (Contents × Json)}
    (pairs : List.Forall₂ (fun member other => member.1 = other.1
      ∧ Relation.ReflGen change member.2 other.2) members others) :
    InEntries change (.object members) (.object others)

/-- The part under a key stays, or it changes as it is listed under the key. -/
inductive InPart (parts : List (String × Change)) : Contents → Change
  | same (key : Contents) (value : Json) : InPart parts key value value
  | changed {name : String} {change : Change} {value other : Json} (listed : (name, change) ∈ parts)
    (holds : change value other) : InPart parts (some name) value other

/-- Some fields of a record with the given field names change. -/
inductive InFields (names : List String) (parts : List (String × Change)) : Change
  | object {members others : List (Contents × Json)}
    (pairs : List.Forall₂ (fun member other => member.1 = other.1
      ∧ InPart parts member.1 member.2 other.2) members others) :
    InFields names parts (.object members) (.object others)
  | array {items others : List Json} (lengths : items.length = others.length)
    (pairs : List.Forall₂ (fun field other => field.1 = other.1
      ∧ InPart parts (some field.1) field.2 other.2) (names.zip items) (names.zip others)) :
    InFields names parts (.array items) (.array others)

/-- The contents of an alternative change. -/
inductive InAlternative (parts : List (String × Change)) : Change
  | object {name : String} {change : Change} {value other : Json} (listed : (name, change) ∈ parts)
    (holds : change value other) :
    InAlternative parts (.record [(name, value)]) (.record [(name, other)])

/-! ### Changes in one place -/

section OnePlace

variable {change : Change} {value other : Json}

theorem InItems.middle (before after : List Json) (holds : change value other) :
    InItems change (.array (before ++ value :: after)) (.array (before ++ other :: after)) := by
  have kept (items : List Json) : List.Forall₂ (Relation.ReflGen change) items items :=
    List.forall₂_same.mpr fun _ _ => .refl
  exact .array (List.rel_append (kept before) (.cons (.single holds) (kept after)))

theorem InEntries.middle (before after : List (Contents × Json)) (key : Contents)
    (holds : change value other) :
    InEntries change (.object (before ++ (key, value) :: after))
      (.object (before ++ (key, other) :: after)) := by
  have kept (members : List (Contents × Json)) :
      List.Forall₂ (fun member other => member.1 = other.1 ∧ Relation.ReflGen change member.2 other.2)
        members members :=
    List.forall₂_same.mpr fun _ _ => ⟨rfl, .refl⟩
  exact .object (List.rel_append (kept before) (.cons ⟨rfl, .single holds⟩ (kept after)))

theorem InFields.middle {names : List String} {parts : List (String × Change)} {name : String}
    (before after : List (Contents × Json)) (listed : (name, change) ∈ parts)
    (holds : change value other) :
    InFields names parts (.object (before ++ (some name, value) :: after))
      (.object (before ++ (some name, other) :: after)) := by
  have kept (members : List (Contents × Json)) :
      List.Forall₂ (fun member other => member.1 = other.1 ∧ InPart parts member.1 member.2 other.2)
        members members :=
    List.forall₂_same.mpr fun _ _ => ⟨rfl, .same ..⟩
  exact .object (List.rel_append (kept before) (.cons ⟨rfl, .changed listed holds⟩ (kept after)))

end OnePlace

/-! ### Related steps -/

section Steps

variable {α β γ δ : Type} {related : α → β → Prop} {after : γ → δ → Prop}

theorem rel_imp {first : Option α} {other : Option β} {weaker : α → β → Prop}
    (pair : Option.Rel related first other)
    (implies : ∀ {value otherValue}, related value otherValue → weaker value otherValue) :
    Option.Rel weaker first other := by
  cases pair with
  | none => exact .none
  | some holds => exact .some (implies holds)

theorem rel_bind {first : Option α} {other : Option β} {next : α → Option γ}
    {otherNext : β → Option δ} (pair : Option.Rel related first other)
    (step : ∀ value otherValue, related value otherValue →
      Option.Rel after (next value) (otherNext otherValue)) :
    Option.Rel after (first >>= next) (other >>= otherNext) := by
  cases pair with
  | none => exact .none
  | some holds => exact step _ _ holds

theorem rel_bind_same {first : Option α} {next : α → Option γ} {otherNext : α → Option δ}
    (step : ∀ value, Option.Rel after (next value) (otherNext value)) :
    Option.Rel after (first >>= next) (first >>= otherNext) := by
  cases first with
  | none => exact .none
  | some value => exact step value

theorem rel_mapM {step : α → Option γ} {otherStep : β → Option δ} {list : List α} {others : List β}
    (pairs : List.Forall₂ (fun element other => Option.Rel after (step element) (otherStep other)) list
      others) :
    Option.Rel (List.Forall₂ after) (list.mapM step) (others.mapM otherStep) := by
  induction pairs with
  | nil => exact .some .nil
  | cons pair _ ih =>
    rw [List.mapM_cons, List.mapM_cons]
    exact rel_bind pair fun _ _ head => rel_bind ih fun _ _ rest => .some (.cons head rest)

end Steps

/-! ### Reading that respects changes -/

variable {α β : Type} {change : Change} {form : α → β} {read : Json → Option α}

/-- Both have the same form. -/
abbrev Alike (form : α → β) (first second : α) : Prop := form first = form second

/-- After the change there is something to read if there was before, and it has the same form. -/
def Respects (change : Change) (form : α → β) (read : Json → Option α) : Prop :=
  ∀ ⦃value other⦄, change value other → Option.Rel (Alike form) (read value) (read other)

theorem rel_alike_iff {first second : Option α} :
    Option.Rel (Alike form) first second ↔ first.map form = second.map form := by
  constructor
  · intro pair
    cases pair with
    | none => rfl
    | some same => exact congrArg some same
  · intro same
    cases first with
    | none =>
      cases second with
      | none => exact .none
      | some _ => cases same
    | some value =>
      cases second with
      | none => cases same
      | some other => exact .some (Option.some.inj same)

theorem rel_alike_refl (value : Option α) : Option.Rel (Alike form) value value :=
  rel_alike_iff.mpr rfl

theorem Respects.refl (reads : Respects change form read) :
    Respects (Relation.ReflGen change) form read := by
  rintro value other (_ | holds)
  · exact rel_alike_refl _
  · exact reads holds

theorem nullable?_of_ne_null (read : Json → Option α) {json : Json} (present : json ≠ .null) :
    nullable? read json = read json >>= fun value => some (some value) := by
  unfold nullable?
  split
  · exact absurd rfl present
  · exact Option.map_eq_bind

/-- Changes without `null` are respected where a value may be null. -/
theorem Respects.nullable (reads : Respects change form read)
    (present : ∀ ⦃value other⦄, change value other → value ≠ .null ∧ other ≠ .null) :
    Respects change (Option.map form) (nullable? read) := by
  intro value other holds
  obtain ⟨first, second⟩ := present holds
  rw [nullable?_of_ne_null read first, nullable?_of_ne_null read second]
  exact rel_bind (reads holds) fun _ _ same => .some (congrArg some same)

/-! ### Lists and maps -/

theorem map_eq_of_alike {list others : List α} (pairs : List.Forall₂ (Alike form) list others) :
    list.map form = others.map form :=
  (Success.map_eq_map pairs fun _ _ _ same => same.symm).symm

theorem respects_items? (reads : Respects change form read) :
    Respects (InItems change) (List.map form) (items? read) := by
  rintro _ _ ⟨pairs⟩
  exact rel_imp (rel_mapM (pairs.imp fun _ _ holds => reads.refl holds)) map_eq_of_alike

/-- Members with related values have keys that are text together. -/
theorem rel_keyed? (related : Contents → Change) {members others : List (Contents × Json)}
    (pairs : List.Forall₂ (fun member other => member.1 = other.1
      ∧ related member.1 member.2 other.2) members others) :
    Option.Rel (List.Forall₂ fun member other => member.1 = other.1
        ∧ related (some member.1) member.2 other.2)
      (members.mapM keyed?) (others.mapM keyed?) := by
  refine rel_mapM (pairs.imp ?_)
  rintro ⟨key, value⟩ ⟨_, other⟩ ⟨rfl, holds⟩
  cases key with
  | none => exact .none
  | some key => exact .some ⟨rfl, holds⟩

theorem respects_readMap? (reads : Respects change form read) :
    Respects (InEntries change) (fun map => map.mapValues form) (Document.readMap? read) := by
  intro _ _ changed
  cases changed with
  | @object members others pairs =>
    have keyed : Option.Rel (List.Forall₂ fun member other => member.1 = other.1
        ∧ Relation.ReflGen change member.2 other.2) (members.mapM keyed?) (others.mapM keyed?) :=
      rel_keyed? (fun _ => Relation.ReflGen change) pairs
    have entries : Option.Rel
        (List.Forall₂ fun entry other => other.1 = entry.1 ∧ Alike form entry.2 other.2)
        (entries? read (.object members)) (entries? read (.object others)) := by
      refine rel_bind keyed fun _ _ same => rel_mapM (same.imp ?_)
      rintro ⟨key, value⟩ ⟨_, other⟩ ⟨rfl, holds⟩
      exact rel_bind (reads.refl holds) fun _ _ same => .some ⟨rfl, same⟩
    unfold Document.readMap?
    rw [Option.map_eq_bind, Option.map_eq_bind]
    refine rel_bind entries fun _ _ same => .some (OrderedMap.ext ?_)
    refine (Success.map_eq_map (OrderedMap.forall₂_ofList And.left same) ?_).symm
    rintro entry _ ⟨key, value⟩ ⟨sameKey, sameValue⟩
    exact Prod.ext sameKey sameValue.symm

/-! ### Records -/

/-- The members of a record that are among its fields. -/
def known (names : List String) (members : List (String × Json)) : Fields :=
  members.filter fun member => names.contains member.1

theorem fields?_object (names : List String) (members : List (Contents × Json)) :
    (object members).fields? names = members.mapM keyed? >>= fun members =>
      if ((known names members).map Prod.fst).Nodup then some (known names members) else none :=
  rfl

/-- A record none of whose members is known has no fields. -/
theorem fields?_of_unknown {names : List String} {members : List (Contents × Json)}
    (unknown : ∀ member ∈ members, ∃ key, member.1 = some key ∧ key ∉ names) :
    (object members).fields? names = some [] := by
  have keyed : ∃ fields, members.mapM keyed? = some fields ∧ known names fields = [] := by
    induction members with
    | nil => exact ⟨[], rfl, rfl⟩
    | cons member rest ih =>
      obtain ⟨fields, areFields, isEmpty⟩ := ih fun other inside =>
        unknown other (List.mem_cons_of_mem _ inside)
      obtain ⟨key, isKey, isUnknown⟩ := unknown member (List.mem_cons_self ..)
      refine ⟨(key, member.2) :: fields, ?_, ?_⟩
      · rw [List.mapM_cons, areFields, keyed?, isKey]
        rfl
      · rw [known, List.filter_cons_of_neg (by simpa using isUnknown)]
        exact isEmpty
  obtain ⟨fields, areFields, isEmpty⟩ := keyed
  rw [fields?_object, areFields]
  show (if ((known names fields).map Prod.fst).Nodup then some (known names fields) else none) = _
  rw [isEmpty, List.map_nil, if_pos List.nodup_nil]

/-- The fields of a record before and after a change of some. -/
def FieldsRel (parts : List (String × Change)) (fields others : Fields) : Prop :=
  ∀ name, Option.Rel (InPart parts (some name)) (fields.lookup name) (others.lookup name)

section Fields

variable {names : List String} {parts : List (String × Change)} {fields others : Fields}

theorem fieldsRel_of_forall₂ (pairs : List.Forall₂ (fun field other => field.1 = other.1
    ∧ InPart parts (some field.1) field.2 other.2) fields others) : FieldsRel parts fields others := by
  intro name
  induction pairs with
  | nil => exact .none
  | @cons field other _ _ pair _ ih =>
    obtain ⟨key, value⟩ := field
    obtain ⟨_, otherValue⟩ := other
    obtain ⟨rfl, holds⟩ := pair
    by_cases same : name = key
    · subst same
      have pair : Option.Rel (InPart parts (some name)) (some value) (some otherValue) := .some holds
      simpa using pair
    · have differ : (name == key) = false := by simpa using same
      simpa [List.lookup_cons, differ] using ih

theorem rel_fields?_array {related : Fields → Fields → Prop} {items others : List Json}
    (lengths : items.length = others.length) (pair : related (names.zip items) (names.zip others)) :
    Option.Rel related ((array items).fields? names) ((array others).fields? names) := by
  rw [fields?, fields?, lengths]
  split
  · exact .some pair
  · exact .none

/-- After changes within a record, each of its fields stays or has been changed. -/
theorem rel_fields? {value other : Json} (change : InFields names parts value other) :
    Option.Rel (FieldsRel parts) (value.fields? names) (other.fields? names) := by
  cases change with
  | array lengths pairs => exact rel_fields?_array lengths (fieldsRel_of_forall₂ pairs)
  | object pairs =>
    rw [fields?_object, fields?_object]
    refine rel_bind (rel_keyed? (InPart parts) pairs) fun members others same => ?_
    have related : List.Forall₂ (fun member other => member.1 = other.1
        ∧ InPart parts (some member.1) member.2 other.2) (known names members) (known names others) := by
      refine List.rel_filter (fun member other pair => ?_) same
      show names.contains member.1 = true ↔ names.contains other.1 = true
      rw [pair.1]
    have keys : (known names others).map Prod.fst = (known names members).map Prod.fst :=
      Success.map_eq_map related fun _ _ _ pair => pair.1.symm
    rw [keys]
    split
    · exact .some (fieldsRel_of_forall₂ related)
    · exact .none

/-- A field without a listed change stays. -/
theorem FieldsRel.kept (same : FieldsRel parts fields others) (name : String)
    (unlisted : name ∉ parts.map Prod.fst) : fields.lookup name = others.lookup name := by
  have pair := same name
  generalize fields.lookup name = field at pair
  generalize others.lookup name = other at pair
  cases pair with
  | none => rfl
  | some part =>
    cases part with
    | same => rfl
    | changed listed holds => exact absurd (List.mem_map_of_mem listed) unlisted

/-- A field with one listed change stays or is changed by it. -/
theorem FieldsRel.changed (same : FieldsRel parts fields others) {name : String} {change : Change}
    (only : ∀ listed, (name, listed) ∈ parts → listed = change) :
    Option.Rel (Relation.ReflGen change) (fields.lookup name) (others.lookup name) := by
  refine rel_imp (same name) fun part => ?_
  cases part with
  | same => exact .refl
  | changed listed holds =>
    cases only _ listed
    exact .single holds

end Fields

/-! ### Fields that are read -/

section Reading

variable {fields others : Fields} {name : String}

theorem required?_congr (same : fields.lookup name = others.lookup name) (read : Json → Option α) :
    fields.required? name read = others.required? name read := by
  rw [Fields.required?, Fields.required?, same]

theorem optional?_congr (same : fields.lookup name = others.lookup name) (read : Json → Option α)
    (default : α) : fields.optional? name read default = others.optional? name read default := by
  rw [Fields.optional?, Fields.optional?, same]

theorem rel_required? (reads : Respects change form read)
    (field : Option.Rel (Relation.ReflGen change) (fields.lookup name) (others.lookup name)) :
    Option.Rel (Alike form) (fields.required? name read) (others.required? name read) :=
  rel_bind field fun _ _ holds => reads.refl holds

theorem rel_optional? (reads : Respects change form read) (default : α)
    (field : Option.Rel (Relation.ReflGen change) (fields.lookup name) (others.lookup name)) :
    Option.Rel (Alike form) (fields.optional? name read default)
      (others.optional? name read default) := by
  unfold Fields.optional?
  generalize fields.lookup name = first at field
  generalize others.lookup name = second at field
  cases field with
  | none => exact .some rfl
  | some holds => exact reads.refl holds

end Reading

theorem exists_of_rel_some {γ : Type} {related : α → γ → Prop} {value : α} {other : Option γ}
    (pair : Option.Rel related (some value) other) :
    ∃ otherValue, other = some otherValue ∧ related value otherValue := by
  cases pair with
  | some holds => exact ⟨_, rfl, holds⟩

/-! ### Alternatives -/

/-- An alternative is read from its contents. -/
theorem rel_alternative {γ δ : Type} {last : γ → δ} (name : String) (readWhole : Json → Option γ)
    (make : α → γ) (reads : Respects change form read)
    (isRead : ∀ contents,
      readWhole (.record [(name, contents)]) = read contents >>= fun part => some (make part))
    (same : ∀ ⦃part other⦄, form part = form other → last (make part) = last (make other))
    {contents other : Json} (holds : change contents other) :
    Option.Rel (Alike last) (readWhole (.record [(name, contents)]))
      (readWhole (.record [(name, other)])) := by
  rw [isRead, isRead]
  exact rel_bind (reads holds) fun _ _ parts => .some (same parts)

/-! ### One more member -/

section Insertion

variable {names : List String} {key : String} {value : Json}

/-- The fields with one more under `key`. -/
def WithField (key : String) (value : Json) (fields others : Fields) : Prop :=
  fields.lookup key = none ∧ others.lookup key = some value
    ∧ ∀ name, name ≠ key → fields.lookup name = others.lookup name

theorem withField_middle {before after : Fields} (absent : key ∉ (before ++ after).map Prod.fst) :
    WithField key value (before ++ after) (before ++ (key, value) :: after) := by
  have missing := lookup_of_keys key (List.Sublist.refl _) absent
  refine ⟨missing, ?_, fun name other => ?_⟩
  · rw [List.lookup_append] at missing ⊢
    rw [(Option.or_eq_none_iff.mp missing).1, Option.none_or, List.lookup_cons_self]
  · have differ : (name == key) = false := by simpa using other
    rw [List.lookup_append, List.lookup_append, List.lookup_cons, differ]

/-- Members with a key that is text, around one under `key`. -/
theorem mapM_keyed?_middle (before after : List (Contents × Json)) :
    (before ++ (some key, value) :: after).mapM keyed? = before.mapM keyed? >>= fun first =>
      after.mapM keyed? >>= fun rest => some (first ++ (key, value) :: rest) := by
  rw [List.mapM_append, List.mapM_cons]
  cases before.mapM keyed? <;> cases after.mapM keyed? <;> rfl

theorem not_mem_keys_of_mapM_keyed? {members : List (Contents × Json)} {fields : Fields}
    (keyed : members.mapM keyed? = some fields) (absent : ∀ member ∈ members, member.1 ≠ some key) :
    key ∉ fields.map Prod.fst := by
  rw [map_fst_of_mapM_keyed? keyed, List.mem_filterMap]
  rintro ⟨member, inside, isKey⟩
  exact absent member inside isKey

/-- A record with one more member under a known key has one more field. -/
theorem rel_fields?_insert {before after : List (Contents × Json)} (isKnown : key ∈ names)
    (absent : ∀ member ∈ before ++ after, member.1 ≠ some key) :
    Option.Rel (WithField key value) ((object (before ++ after)).fields? names)
      ((object (before ++ (some key, value) :: after)).fields? names) := by
  have keys (fields : Fields) (keyed : (before ++ after).mapM keyed? = some fields) :=
    not_mem_keys_of_mapM_keyed? keyed absent
  rw [List.mapM_append] at keys
  rw [fields?_object, fields?_object, mapM_keyed?_middle, List.mapM_append]
  cases isFirst : before.mapM keyed? with
  | none => exact .none
  | some first =>
    cases isRest : after.mapM keyed? with
    | none => exact .none
    | some rest =>
      rw [isFirst, isRest] at keys
      have base : known names (first ++ rest) = known names first ++ known names rest :=
        List.filter_append ..
      have more : known names (first ++ (key, value) :: rest)
          = known names first ++ (key, value) :: known names rest := by
        rw [known, List.filter_append, List.filter_cons_of_pos (by simpa using isKnown)]
        rfl
      have absentKey : key ∉ (known names first ++ known names rest).map Prod.fst := by
        rw [← base]
        exact fun member => keys _ rfl ((List.filter_sublist.map Prod.fst).subset member)
      have distinct : ((known names first ++ (key, value) :: known names rest).map Prod.fst).Nodup
          ↔ ((known names first ++ known names rest).map Prod.fst).Nodup := by
        rw [List.map_append, List.map_cons, List.nodup_middle, ← List.map_append, List.nodup_cons]
        exact and_iff_right absentKey
      show Option.Rel _
        (if ((known names (first ++ rest)).map Prod.fst).Nodup then
          some (known names (first ++ rest)) else none)
        (if ((known names (first ++ (key, value) :: rest)).map Prod.fst).Nodup then
          some (known names (first ++ (key, value) :: rest)) else none)
      rw [base, more]
      simp only [distinct]
      split
      · exact .some (withField_middle absentKey)
      · exact .none

end Insertion

end WitGraph.Json
