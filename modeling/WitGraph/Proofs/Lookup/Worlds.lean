/-
**Two ways to find a world.**

A world is selected by an identifier that is read, whose package is looked up by name and lists the world.
It is matched by a pattern that is compared with what is written for each world of the arena, which has a
link back to its package. Both find the world that has the identifier (`worldIdent?`), as far as the
packages list exactly the worlds that link back to them:

* `selectWorld_text_iff` follows the name of the package and its list of worlds;
* `matchWorld?_text_iff` follows the order of the arena, in which no world comes before the one that is
  meant, since the text of an identifier with a version is no other reading of any world.
-/

import WitGraph.Proofs.Document.Consistent
import WitGraph.Proofs.Lookup

namespace WitGraph

namespace Graph

variable {graph : Graph} {id other : WorldId} {ident : Ident}

/-! ### Packages by name -/

theorem IsRead.packageNames (isRead : graph.IsRead) : graph.packageNames.entries
    = graph.packages.toList.zipIdx.map fun (package, index) => (package.name, ⟨index⟩) := by
  obtain ⟨symbols, accepted⟩ := isRead
  obtain ⟨json, document, -, isLinked⟩ := exists_of_ofSymbols accepted
  exact (Document.link_eq_ok_iff.mp isLinked).packageNames

/-- A graph that has been read finds its packages by their names. -/
theorem IsRead.packageByName?_eq_some_iff (isRead : graph.IsRead) {name : Ident} {id : PackageId} :
    graph.packageByName? name = some id
      ↔ ∃ package, graph.package? id = some package ∧ package.name = name := by
  rw [packageByName?, OrderedMap.find?_eq_some_iff, isRead.packageNames, List.mem_map]
  constructor
  · rintro ⟨⟨package, index⟩, member, same⟩
    cases same
    refine ⟨package, ?_, rfl⟩
    rw [package?, ← Array.getElem?_toList]
    exact List.mem_zipIdx_iff_getElem?.mp member
  · rintro ⟨package, found, rfl⟩
    refine ⟨(package, id.index), List.mem_zipIdx_iff_getElem?.mpr ?_, rfl⟩
    rw [Array.getElem?_toList]
    exact found

/-! ### Identifiers of worlds -/

/-- The identifier of a world; none if it has no package. -/
def worldIdent? (graph : Graph) (id : WorldId) : Option Ident := do
  let world ← graph.world? id
  let package ← graph.package? (← world.package)
  return package.name.withExtension world.name

/-- Names are names, packages are named as packages, and a package lists exactly the worlds that link
back to it, each under its name. -/
structure ListsWorlds (graph : Graph) : Prop where
  names : ∀ id world, graph.world? id = some world → Ident.IsName world.name
  packages : ∀ id package, graph.package? id = some package → package.name.extension = none
  listed : ∀ id package, graph.package? id = some package → ∀ name worldId,
    package.worlds.find? name = some worldId
      ↔ ∃ world, graph.world? worldId = some world ∧ world.package = some id ∧ world.name = name

theorem worldIdent?_eq_some_iff : graph.worldIdent? id = some ident
    ↔ ∃ world packageId package, graph.world? id = some world ∧ world.package = some packageId
      ∧ graph.package? packageId = some package ∧ package.name.withExtension world.name = ident := by
  simp only [worldIdent?, Option.bind_eq_bind, Option.bind_eq_some_iff, Option.pure_def,
    Option.some.injEq]
  constructor
  · rintro ⟨world, found, packageId, owned, package, isPackage, same⟩
    exact ⟨world, packageId, package, found, owned, isPackage, same⟩
  · rintro ⟨world, packageId, package, found, owned, isPackage, same⟩
    exact ⟨world, found, packageId, owned, package, isPackage, same⟩

theorem isNormal_of_worldIdent? (writable : graph.IsWritable) (lists : graph.ListsWorlds)
    (isIdent : graph.worldIdent? id = some ident) : ident.IsNormal := by
  obtain ⟨world, packageId, package, found, -, isPackage, rfl⟩ := worldIdent?_eq_some_iff.mp isIdent
  have normal : package.name.IsNormal := writable .package packageId package isPackage
  exact normal.withExtension (lists.names id world found)

/-- The identifier of a world is the name of a package that lists the world. -/
theorem ListsWorlds.worldIdent?_iff_listed (lists : graph.ListsWorlds) {name : String}
    (named : ident.extension = some name) : graph.worldIdent? id = some ident
      ↔ ∃ packageId package, graph.package? packageId = some package
        ∧ package.name = ident.packageName ∧ package.worlds.find? name = some id := by
  rw [worldIdent?_eq_some_iff]
  constructor
  · rintro ⟨world, packageId, package, found, owned, isPackage, rfl⟩
    obtain rfl : world.name = name := Option.some.inj named
    refine ⟨packageId, package, isPackage, ?_, ?_⟩
    · exact (packageName_withExtension (lists.packages packageId package isPackage) _).symm
    · exact (lists.listed packageId package isPackage _ id).mpr ⟨world, found, owned, rfl⟩
  · rintro ⟨packageId, package, isPackage, same, isListed⟩
    obtain ⟨world, found, owned, rfl⟩ := (lists.listed packageId package isPackage name id).mp isListed
    refine ⟨world, packageId, package, found, owned, isPackage, ?_⟩
    rw [same, Ident.withExtension, ← named]
    rfl

/-- No two worlds have one identifier. -/
theorem ListsWorlds.worldIdent?_injective (lists : graph.ListsWorlds)
    (named : (graph.packages.toList.map Package.name).Nodup)
    (isIdent : graph.worldIdent? id = some ident) (isOther : graph.worldIdent? other = some ident) :
    id = other := by
  obtain ⟨world, _, _, -, -, -, same⟩ := worldIdent?_eq_some_iff.mp isIdent
  have hasName : ident.extension = some world.name := congrArg Ident.extension same.symm
  obtain ⟨first, package, isFirst, isName, isListed⟩ := (lists.worldIdent?_iff_listed hasName).mp isIdent
  obtain ⟨second, _, isSecond, isSame, otherListed⟩ := (lists.worldIdent?_iff_listed hasName).mp isOther
  obtain rfl := package?_name_injective named isFirst isSecond (isName.trans isSame.symm)
  cases isFirst.symm.trans isSecond
  exact Option.some.inj (isListed.symm.trans otherListed)

/-! ### Selecting and matching -/

variable (isRead : graph.IsRead) (lists : graph.ListsWorlds) (normal : ident.IsNormal)

include isRead lists normal

/-- The text of an identifier selects the world that has it, whatever package is at hand. -/
theorem selectWorld_text_iff {name : String} (named : ident.extension = some name)
    (package : PackageId) :
    graph.selectWorld package (some ident.text) = .ok id ↔ graph.worldIdent? id = some ident := by
  have hasColon : ident.text.toList.contains ':' = true :=
    List.contains_iff_mem.mpr ident.colon_mem_text
  rw [selectWorld, if_pos hasColon, specifiedWorld, Ident.parse_text normal,
    lists.worldIdent?_iff_listed named]
  simp only [named]
  cases isFound : graph.packageByName? ident.packageName with
  | none =>
    constructor
    · intro selected
      cases selected
    · rintro ⟨packageId, package, isPackage, same, -⟩
      have found := isRead.packageByName?_eq_some_iff.mpr ⟨package, isPackage, same⟩
      cases isFound.symm.trans found
  | some packageId =>
    obtain ⟨package, isPackage, same⟩ := isRead.packageByName?_eq_some_iff.mp isFound
    have selected : graph.selectPackage packageId = .ok package := by rw [selectPackage, isPackage]
    have isListed : namedWorld package name = .ok id ↔ package.worlds.find? name = some id := by
      unfold namedWorld
      cases package.worlds.find? name <;> simp
    show (do namedWorld (← graph.selectPackage packageId) name) = .ok id ↔ _
    rw [selected]
    refine isListed.trans ⟨fun found => ⟨packageId, package, isPackage, same, found⟩, ?_⟩
    rintro ⟨otherId, _, isOther, isSame, found⟩
    have samePackage := isRead.packageByName?_eq_some_iff.mpr ⟨_, isOther, isSame⟩
    cases isFound.symm.trans samePackage
    cases isPackage.symm.trans isOther
    exact found

/-- With a version, the text of an identifier names only worlds that have the identifier. -/
theorem matchesWorld_text_iff {version : Version} (versioned : ident.version = some version) :
    graph.matchesWorld ident.text id ↔ graph.worldIdent? id = some ident := by
  have writable := isWritable_of_isRead isRead
  unfold matchesWorld
  cases found : graph.world? id with
  | none => exact iff_of_false nofun (by simp [worldIdent?, found])
  | some world =>
    refine matchesItem_some_iff.trans ?_
    constructor
    · rintro (isName | ⟨packageId, package, owned, isPackage, same⟩)
      · have noColon := Ident.not_mem_of_isName (lists.names id world found)
          (show Version.isIdentifierChar ':' = false by rfl)
        exact absurd ident.colon_mem_text (isName ▸ noColon)
      have isIdent : graph.worldIdent? id = some (package.name.withExtension world.name) :=
        worldIdent?_eq_some_iff.mpr ⟨world, packageId, package, found, owned, isPackage, rfl⟩
      have isNormal := isNormal_of_worldIdent? writable lists isIdent
      rcases same with same | same
      · rw [isIdent, (isNormal.text_inj normal).mp same]
      · -- a reading without a version is no reading of a text with one
        have isSame := (isNormal.unversioned.text_inj normal).mp same
        rw [← isSame] at versioned
        cases versioned
    · intro isIdent
      obtain ⟨_, packageId, package, isWorld, owned, isPackage, rfl⟩ :=
        worldIdent?_eq_some_iff.mp isIdent
      cases found.symm.trans isWorld
      exact Or.inr ⟨packageId, package, owned, isPackage, Or.inl rfl⟩

/-- With a version, the text of an identifier matches the world that has it, wherever this stands. -/
theorem matchWorld?_text_iff {version : Version} (versioned : ident.version = some version) :
    graph.matchWorld? ident.text = some id ↔ graph.worldIdent? id = some ident := by
  have named := (wellLinked_of_isRead isRead).named
  have matching (id : WorldId) : graph.matchesWorld ident.text id ↔ graph.worldIdent? id = some ident :=
    matchesWorld_text_iff isRead lists normal versioned
  rw [matchWorld?, find?_ids_eq_some_iff, matching]
  refine ⟨fun found => found.2.1, fun isIdent => ⟨?_, isIdent, fun earlier isBefore fits => ?_⟩⟩
  · obtain ⟨world, -, -, found, -⟩ := worldIdent?_eq_some_iff.mp isIdent
    exact (graph.holds_iff_entity? id.item).mpr ⟨world, found⟩
  · obtain rfl := lists.worldIdent?_injective named isIdent ((matching earlier).mp fits)
    exact Nat.lt_irrefl _ isBefore

omit normal

/-- **Selecting and matching find the same world** for every text that an identifier of a world with a
version is written as, namely the world that has this identifier. -/
theorem selectWorld_eq_ok_iff_matchWorld? {source : String} (read : Ident.parse source = .ok ident)
    {name : String} (named : ident.extension = some name) {version : Version}
    (versioned : ident.version = some version) (package : PackageId) (world : WorldId) :
    (graph.selectWorld package (some ident.text) = .ok world
        ↔ graph.matchWorld? ident.text = some world)
      ∧ (graph.matchWorld? ident.text = some world ↔ graph.worldIdent? world = some ident) := by
  have normal := Ident.isNormal_of_parse read
  have matched : graph.matchWorld? ident.text = some world ↔ graph.worldIdent? world = some ident :=
    matchWorld?_text_iff isRead lists normal versioned
  exact ⟨(selectWorld_text_iff isRead lists normal named package).trans matched.symm, matched⟩

end Graph

/-! ### A world in two versions of a package -/

namespace Graph

namespace TwoWorlds

/-- The lines of a document with a world of one name in each of two versions of a package. -/
def lines : List String := [
  "\x7b\"worlds\":[\x7b\"name\":\"list\",\"package\":0\x7d,",
  "\x7b\"name\":\"list\",\"package\":1\x7d],",
  "\"packages\":[\x7b\"name\":\"a:b@1.0.0\",\"worlds\":\x7b\"list\":0\x7d\x7d,",
  "\x7b\"name\":\"a:b@2.0.0\",\"worlds\":\x7b\"list\":1\x7d\x7d]\x7d"]

/-- The name of a version of the package. -/
def packageName (major : Nat) : Ident :=
  { ns := "a", package := "b", version := some ⟨major, 0, 0, [], []⟩ }

/-- The graph that the document describes. -/
def graph : Graph where
  worlds := #[
    { name := "list", package := some ⟨0⟩ }, { name := "list", package := some ⟨1⟩ }]
  packages := #[
    { name := packageName 1, worlds := .ofList [("list", ⟨0⟩)] },
    { name := packageName 2, worlds := .ofList [("list", ⟨1⟩)] }]
  packageNames := .ofList [(packageName 1, ⟨0⟩), (packageName 2, ⟨1⟩)]

theorem accepted : ofText ("\n".intercalate lines) = .ok graph := by
  rw [ofText_intercalate]
  decide +kernel

/-- Both worlds are called `list`, each in a package of its own. -/
theorem world_eq {id : WorldId} {world : World} (found : graph.world? id = some world) :
    world.name = "list" ∧ world.package = some ⟨id.index⟩ := by
  match id with
  | ⟨0⟩ | ⟨1⟩ =>
    cases found
    exact ⟨rfl, rfl⟩
  | ⟨_ + 2⟩ => cases found

theorem package_eq {id : PackageId} {package : Package} (found : graph.package? id = some package) :
    package.name.extension = none ∧ package.worlds.entries = [("list", ⟨id.index⟩)]
      ∧ ∃ world, graph.world? ⟨id.index⟩ = some world := by
  match id with
  | ⟨0⟩ | ⟨1⟩ =>
    cases found
    exact ⟨rfl, rfl, _, rfl⟩
  | ⟨_ + 2⟩ => cases found

theorem listsWorlds : graph.ListsWorlds where
  names id world found := by
    rw [(world_eq found).1]
    exact ⟨by decide, by decide⟩
  packages id package found := (package_eq found).1
  listed id package found name worldId := by
    obtain ⟨-, entries, world, isWorld⟩ := package_eq found
    rw [OrderedMap.find?_eq_some_iff, entries, List.mem_singleton, Prod.mk.injEq]
    constructor
    · rintro ⟨rfl, rfl⟩
      exact ⟨world, isWorld, (world_eq isWorld).2, (world_eq isWorld).1⟩
    · rintro ⟨other, isOther, owned, rfl⟩
      cases (world_eq isOther).2.symm.trans owned
      exact ⟨(world_eq isOther).1, rfl⟩

end TwoWorlds

/-- The second world is found by its identifier in both ways; its name is a reserved word, which is
written with a mark. -/
theorem selectWorld_eq_ok_iff_matchWorld?_second :
    TwoWorlds.graph.IsRead ∧ TwoWorlds.graph.ListsWorlds
      ∧ Ident.parse "%a:b/%list@2.0.0" = .ok ((TwoWorlds.packageName 2).withExtension "list")
      ∧ TwoWorlds.graph.matchWorld? "a:b/%list@2.0.0" = some ⟨1⟩
      ∧ TwoWorlds.graph.selectWorld ⟨0⟩ (some "a:b/%list@2.0.0") = .ok ⟨1⟩ := by
  have isRead : TwoWorlds.graph.IsRead := ⟨_, TwoWorlds.accepted⟩
  have read : Ident.parse "%a:b/%list@2.0.0" = .ok ((TwoWorlds.packageName 2).withExtension "list") := by
    decide +kernel
  have written : ((TwoWorlds.packageName 2).withExtension "list").text = "a:b/%list@2.0.0" := by
    decide +kernel
  obtain ⟨same, matched⟩ := selectWorld_eq_ok_iff_matchWorld? isRead TwoWorlds.listsWorlds read rfl rfl
    ⟨0⟩ ⟨1⟩
  rw [written] at same matched
  have isMatched := matched.mpr rfl
  exact ⟨isRead, TwoWorlds.listsWorlds, read, isMatched, same.mpr isMatched⟩

end Graph

end WitGraph
