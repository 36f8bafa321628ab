/-
**Finding an interface by its identifier.**

A pattern names an interface by its bare name, its identifier or its identifier without a version, and
the first interface that it names is found. The text of an identifier is no bare name, and it is read in
one way only. So where names are names and nothing has the name of something else, the identifier of an
interface names no other one, apart from those that it is the unversioned identifier of (`Shadows`):
another version of its package, if it has no version itself.
-/

import WitGraph.Lookup
import WitGraph.Proofs.Document.WellLinked
import WitGraph.Proofs.Ident

namespace WitGraph

namespace Graph

section Finding

variable {graph : Graph} {id other : InterfaceId} {ident : Ident}

/-! ### The first of the arena -/

/-- The entity that is found in an arena is the first one that passes the test. -/
theorem find?_ids_eq_some_iff {arena : Arena} {test : Id arena → Bool} {found : Id arena} :
    (graph.ids arena).find? test = some found
      ↔ graph.Holds found.item ∧ test found
        ∧ ∀ earlier : Id arena, earlier.index < found.index → ¬ test earlier := by
  obtain ⟨index⟩ := found
  unfold ids
  rw [List.find?_map, Option.map_eq_some_iff]
  constructor
  · rintro ⟨_, isFound, ⟨⟩⟩
    obtain ⟨passes, inside, before⟩ := List.find?_range_eq_some.mp isFound
    refine ⟨List.mem_range.mp inside, passes, fun earlier isBefore => ?_⟩
    simpa using before earlier.index isBefore
  · rintro ⟨inside, passes, before⟩
    refine ⟨index, List.find?_range_eq_some.mpr ⟨passes, List.mem_range.mpr inside, ?_⟩, rfl⟩
    intro earlier isBefore
    simpa using before ⟨earlier⟩ isBefore

/-! ### Identifiers of interfaces -/

/-- Names are names, packages are named as packages, and interfaces of one package have different
names. -/
structure HasUniqueNames (graph : Graph) : Prop where
  names : ∀ id interface name, graph.interface? id = some interface → interface.name = some name →
    Ident.IsName name
  packages : ∀ id package, graph.package? id = some package → package.name.extension = none
  distinct : ∀ first second interface same package name, graph.interface? first = some interface →
    graph.interface? second = some same → interface.package = some package →
    same.package = some package → interface.name = some name → same.name = some name → first = second

theorem interfaceIdent?_eq_some_iff : graph.interfaceIdent? id = some ident
    ↔ ∃ interface packageId package name, graph.interface? id = some interface
      ∧ interface.package = some packageId ∧ graph.package? packageId = some package
      ∧ interface.name = some name ∧ package.name.withExtension name = ident := by
  simp only [interfaceIdent?, Option.bind_eq_bind, Option.bind_eq_some_iff, Option.pure_def,
    Option.some.injEq]
  constructor
  · rintro ⟨interface, found, packageId, owned, package, isPackage, name, named, same⟩
    exact ⟨interface, packageId, package, name, found, owned, isPackage, named, same⟩
  · rintro ⟨interface, packageId, package, name, found, owned, isPackage, named, same⟩
    exact ⟨interface, found, packageId, owned, package, isPackage, name, named, same⟩

theorem isNormal_of_interfaceIdent? (writable : graph.IsWritable) (unique : graph.HasUniqueNames)
    (isIdent : graph.interfaceIdent? id = some ident) : ident.IsNormal := by
  obtain ⟨interface, packageId, package, name, found, -, isPackage, named, rfl⟩ :=
    interfaceIdent?_eq_some_iff.mp isIdent
  have normal : package.name.IsNormal := writable .package packageId package isPackage
  exact normal.withExtension (unique.names id interface name found named)

/-- Packages with one name are one package. -/
theorem package?_name_injective (named : (graph.packages.toList.map Package.name).Nodup)
    {first second : PackageId} {package same : Package} (found : graph.package? first = some package)
    (foundSame : graph.package? second = some same) (agree : package.name = same.name) :
    first = second := by
  have names {id : PackageId} {package : Package} (found : graph.package? id = some package) :
      (graph.packages.toList.map Package.name)[id.index]? = some package.name := by
    rw [List.getElem?_map, Array.getElem?_toList]
    exact Option.map_eq_some_iff.mpr ⟨package, found, rfl⟩
  obtain ⟨inside, -⟩ := List.getElem?_eq_some_iff.mp (names found)
  have sameIndex : first.index = second.index := by
    refine (List.getElem?_inj inside named).mp ?_
    rw [names found, names foundSame, agree]
  exact congrArg Id.mk sameIndex

theorem packageName_withExtension (isPackage : ident.extension = none) (name : String) :
    (ident.withExtension name).packageName = ident := by
  obtain ⟨ns, package, extension, version⟩ := ident
  cases isPackage
  rfl

/-- No two interfaces have one identifier. -/
theorem interfaceIdent?_injective (named : (graph.packages.toList.map Package.name).Nodup)
    (unique : graph.HasUniqueNames) (isIdent : graph.interfaceIdent? id = some ident)
    (isOther : graph.interfaceIdent? other = some ident) : id = other := by
  obtain ⟨interface, packageId, package, name, found, owned, isPackage, isName, rfl⟩ :=
    interfaceIdent?_eq_some_iff.mp isIdent
  obtain ⟨second, secondId, secondPackage, secondName, foundSecond, ownedSecond, isSecondPackage,
    isSecondName, same⟩ := interfaceIdent?_eq_some_iff.mp isOther
  have agree : package.name = secondPackage.name :=
    calc package.name = (package.name.withExtension name).packageName :=
          (packageName_withExtension (unique.packages packageId package isPackage) name).symm
      _ = (secondPackage.name.withExtension secondName).packageName := by rw [same]
      _ = secondPackage.name :=
          packageName_withExtension (unique.packages secondId secondPackage isSecondPackage) secondName
  obtain rfl : secondName = name := Option.some.inj (congrArg Ident.extension same)
  obtain rfl := package?_name_injective named isPackage isSecondPackage agree
  exact unique.distinct id other interface second packageId _ found foundSecond owned ownedSecond
    isName isSecondName

/-! ### What the text of an identifier names -/

/-- A pattern names what is called so, or what has it as its identifier or as this without the version. -/
theorem matchesItem_some_iff {name pattern : String} {package : Option PackageId} :
    graph.matchesItem (some name) package pattern
      ↔ name = pattern ∨ ∃ packageId entity, package = some packageId
        ∧ graph.package? packageId = some entity ∧ ((entity.name.withExtension name).text = pattern
          ∨ (entity.name.withExtension name).unversioned.text = pattern) := by
  simp only [matchesItem, Bool.or_eq_true, decide_eq_true_eq]
  refine or_congr eq_comm ?_
  cases found : package.bind graph.package? with
  | none =>
    refine iff_of_false nofun ?_
    rintro ⟨packageId, entity, owned, isPackage, -⟩
    cases (Option.bind_eq_none_iff.mp found packageId owned).symm.trans isPackage
  | some entity =>
    obtain ⟨packageId, owned, isPackage⟩ := Option.bind_eq_some_iff.mp found
    simp only [Bool.or_eq_true, decide_eq_true_eq]
    constructor
    · intro same
      exact ⟨packageId, entity, owned, isPackage, same.imp Eq.symm Eq.symm⟩
    · rintro ⟨_, _, isOwner, isEntity, same⟩
      cases owned.symm.trans isOwner
      cases isPackage.symm.trans isEntity
      exact same.imp Eq.symm Eq.symm

/-- A pattern names an interface by its name, by its identifier or by this without the version. -/
theorem matchesInterface_iff {pattern : String} : graph.matchesInterface pattern id
    ↔ (∃ interface, graph.interface? id = some interface ∧ interface.name = some pattern)
      ∨ ∃ ident, graph.interfaceIdent? id = some ident
        ∧ (ident.text = pattern ∨ ident.unversioned.text = pattern) := by
  simp only [interfaceIdent?_eq_some_iff]
  unfold matchesInterface
  cases found : graph.interface? id with
  | none => simp
  | some interface =>
    show graph.matchesItem interface.name interface.package pattern = true ↔ _
    cases named : interface.name with
    | none => simp [matchesItem, named]
    | some name =>
      rw [matchesItem_some_iff]
      constructor
      · rintro (rfl | ⟨packageId, package, owned, isPackage, same⟩)
        · exact Or.inl ⟨interface, rfl, named⟩
        · exact Or.inr ⟨_, ⟨interface, packageId, package, name, rfl, owned, isPackage, named, rfl⟩, same⟩
      · rintro (⟨_, ⟨⟩, isName⟩ | ⟨_, ⟨_, packageId, package, _, ⟨⟩, owned, isPackage, isName, rfl⟩, same⟩)
        · exact Or.inl (Option.some.inj (named.symm.trans isName))
        · cases named.symm.trans isName
          exact Or.inr ⟨packageId, package, owned, isPackage, same⟩

/-- One interface has the identifier of the other one but for a version that the other one has not. -/
def Shadows (graph : Graph) (other id : InterfaceId) : Prop :=
  ∃ shadow version, graph.interfaceIdent? other = some shadow ∧ shadow.version = some version
    ∧ graph.interfaceIdent? id = some shadow.unversioned

theorem matchesInterface_text_iff (isRead : graph.IsRead) (unique : graph.HasUniqueNames)
    (isIdent : graph.interfaceIdent? id = some ident) :
    graph.matchesInterface ident.text other ↔ other = id ∨ graph.Shadows other id := by
  have writable := isWritable_of_isRead isRead
  have named := (wellLinked_of_isRead isRead).named
  have normal := isNormal_of_interfaceIdent? writable unique isIdent
  rw [matchesInterface_iff]
  constructor
  · rintro (⟨interface, found, isName⟩ | ⟨shadow, isShadow, same | same⟩)
    · have noColon := Ident.not_mem_of_isName (unique.names other interface _ found isName)
        (show Version.isIdentifierChar ':' = false by rfl)
      exact absurd ident.colon_mem_text noColon
    · have otherNormal := isNormal_of_interfaceIdent? writable unique isShadow
      obtain rfl := (otherNormal.text_inj normal).mp same
      exact Or.inl (interfaceIdent?_injective named unique isShadow isIdent)
    · have otherNormal := isNormal_of_interfaceIdent? writable unique isShadow
      obtain rfl := (otherNormal.unversioned.text_inj normal).mp same
      cases versioned : shadow.version with
      | none =>
        have isSame : shadow.unversioned = shadow := by rw [Ident.unversioned, ← versioned]
        exact Or.inl (interfaceIdent?_injective named unique isShadow (isSame ▸ isIdent))
      | some version => exact Or.inr ⟨shadow, version, isShadow, versioned, isIdent⟩
  · rintro (rfl | ⟨shadow, version, isShadow, -, isUnversioned⟩)
    · exact Or.inr ⟨ident, isIdent, Or.inl rfl⟩
    · cases isIdent.symm.trans isUnversioned
      exact Or.inr ⟨shadow, isShadow, Or.inr rfl⟩

/-- An interface that is shadowed has no version. -/
theorem Shadows.version_eq_none (shadows : graph.Shadows other id)
    (isIdent : graph.interfaceIdent? id = some ident) : ident.version = none := by
  obtain ⟨shadow, _, -, -, isUnversioned⟩ := shadows
  cases isIdent.symm.trans isUnversioned
  rfl

/-! ### The interface that is found -/

theorem exists_matchInterface? {pattern : String} (held : graph.Holds id.item)
    (fits : graph.matchesInterface pattern id) : ∃ found, graph.matchInterface? pattern = some found := by
  cases isFound : graph.matchInterface? pattern with
  | none => exact absurd fits (List.find?_eq_none.mp isFound id ((graph.mem_ids_iff id).mpr held))
  | some found => exact ⟨found, rfl⟩

/-- **The identifier of an interface finds it**, or the first interface before it that shadows it. None
does if the identifier has a version. -/
theorem identifier_findsInterface (isRead : graph.IsRead) (unique : graph.HasUniqueNames) {text : String}
    (isId : graph.idOf? id = some text) :
    (∃ found, graph.matchInterface? text = some found ∧ (found = id ∨ graph.Shadows found id)
        ∧ ∀ earlier : InterfaceId, earlier.index < found.index →
          earlier ≠ id ∧ ¬ graph.Shadows earlier id)
      ∧ (graph.matchInterface? text = some id
          ↔ ∀ earlier : InterfaceId, earlier.index < id.index → ¬ graph.Shadows earlier id)
      ∧ ∀ ident version, graph.interfaceIdent? id = some ident → ident.version = some version →
          graph.matchInterface? text = some id := by
  obtain ⟨ident, isIdent, rfl⟩ := Option.map_eq_some_iff.mp isId
  have held : graph.Holds id.item := by
    obtain ⟨interface, -, -, -, found, -⟩ := interfaceIdent?_eq_some_iff.mp isIdent
    exact (graph.holds_iff_entity? id.item).mpr ⟨interface, found⟩
  have named (other : InterfaceId) : graph.matchesInterface ident.text other
      ↔ other = id ∨ graph.Shadows other id := matchesInterface_text_iff isRead unique isIdent
  have isFirst : graph.matchInterface? ident.text = some id
      ↔ ∀ earlier : InterfaceId, earlier.index < id.index → ¬ graph.Shadows earlier id := by
    rw [matchInterface?, find?_ids_eq_some_iff, named]
    constructor
    · rintro ⟨-, -, before⟩ earlier isBefore shadows
      exact before earlier isBefore ((named earlier).mpr (Or.inr shadows))
    · intro before
      refine ⟨held, Or.inl rfl, fun earlier isBefore fits => ?_⟩
      rcases (named earlier).mp fits with rfl | shadows
      · exact Nat.lt_irrefl _ isBefore
      · exact before earlier isBefore shadows
  refine ⟨?_, isFirst, fun other version isOther versioned => isFirst.mpr fun earlier _ shadows => ?_⟩
  · obtain ⟨found, isFound⟩ := exists_matchInterface? held ((named id).mpr (Or.inl rfl))
    obtain ⟨-, fits, before⟩ := find?_ids_eq_some_iff.mp isFound
    refine ⟨found, isFound, (named found).mp fits, fun earlier isBefore => not_or.mp ?_⟩
    rw [← named]
    exact before earlier isBefore
  · exact absurd (versioned.symm.trans (shadows.version_eq_none isOther)) (Option.some_ne_none _)

end Finding

namespace TwoVersions

/-- The lines of a document with an interface in a version of a package and in the package without a
version. -/
def lines : List String := [
  "\x7b\"interfaces\":[\x7b\"name\":\"x\",\"package\":0\x7d,",
  "\x7b\"name\":\"x\",\"package\":1\x7d],",
  "\"packages\":[\x7b\"name\":\"a:b@1.0.0\",\"interfaces\":\x7b\"x\":0\x7d\x7d,",
  "\x7b\"name\":\"a:b\",\"interfaces\":\x7b\"x\":1\x7d\x7d]\x7d"]

/-- The graph that the document describes. -/
def graph : Graph where
  interfaces := #[
    { name := some "x", package := some ⟨0⟩ }, { name := some "x", package := some ⟨1⟩ }]
  packages := #[
    { name := { ns := "a", package := "b", version := some ⟨1, 0, 0, [], []⟩ }
      interfaces := .ofList [("x", ⟨0⟩)] },
    { name := { ns := "a", package := "b" }, interfaces := .ofList [("x", ⟨1⟩)] }]
  packageNames := .ofList [
    ({ ns := "a", package := "b", version := some ⟨1, 0, 0, [], []⟩ }, ⟨0⟩),
    ({ ns := "a", package := "b" }, ⟨1⟩)]

theorem accepted : ofText ("\n".intercalate lines) = .ok graph := by
  rw [ofText_intercalate]
  decide +kernel

/-- Both interfaces are called `x`, each in a package of its own. -/
theorem interface_eq {id : InterfaceId} {interface : Interface}
    (found : graph.interface? id = some interface) :
    interface.name = some "x" ∧ interface.package = some ⟨id.index⟩ := by
  match id with
  | ⟨0⟩ | ⟨1⟩ =>
    cases found
    exact ⟨rfl, rfl⟩
  | ⟨_ + 2⟩ => cases found

theorem hasUniqueNames : graph.HasUniqueNames where
  names id interface name found named := by
    obtain rfl : name = "x" := Option.some.inj (named.symm.trans (interface_eq found).1)
    exact ⟨by decide, by decide⟩
  packages id package found := by
    match id with
    | ⟨0⟩ | ⟨1⟩ =>
      cases found
      rfl
    | ⟨_ + 2⟩ => cases found
  distinct first second interface same package name found foundSame owned ownedSame _ _ := by
    have isFirst := (interface_eq found).2.symm.trans owned
    have isSecond := (interface_eq foundSame).2.symm.trans ownedSame
    have agree : (⟨first.index⟩ : PackageId) = ⟨second.index⟩ :=
      Option.some.inj (isFirst.trans isSecond.symm)
    exact congrArg (fun id : PackageId => (⟨id.index⟩ : InterfaceId)) agree

end TwoVersions

/-- The identifier with a version finds its interface. -/
theorem identifier_findsInterface_versioned :
    TwoVersions.graph.IsRead ∧ TwoVersions.graph.HasUniqueNames
      ∧ TwoVersions.graph.idOf? ⟨0⟩ = some "a:b/x@1.0.0"
      ∧ TwoVersions.graph.matchInterface? "a:b/x@1.0.0" = some ⟨0⟩ := by
  have isRead : TwoVersions.graph.IsRead := ⟨_, TwoVersions.accepted⟩
  have isId : TwoVersions.graph.idOf? ⟨0⟩ = some "a:b/x@1.0.0" := by decide +kernel
  obtain ⟨-, -, versioned⟩ := identifier_findsInterface isRead TwoVersions.hasUniqueNames isId
  exact ⟨isRead, TwoVersions.hasUniqueNames, isId, versioned _ _ rfl rfl⟩

/-- **The identifier without a version finds another interface**, the one in the version of the
package. -/
theorem exists_identifier_shadowed : TwoVersions.graph.IsRead ∧ TwoVersions.graph.HasUniqueNames
    ∧ TwoVersions.graph.idOf? ⟨1⟩ = some "a:b/x"
    ∧ TwoVersions.graph.matchInterface? "a:b/x" = some ⟨0⟩ :=
  ⟨⟨_, TwoVersions.accepted⟩, TwoVersions.hasUniqueNames, by decide +kernel, by decide +kernel⟩

end Graph

end WitGraph
