/-
**What a document links to.**

`Linked` says of a document and a graph that every record of the document is linked to the entity at
its position in the graph and that the packages are entered by name. `link_eq_ok_iff` says that a
document is linked to a graph exactly if this is so.
-/

import WitGraph.Document.Linking
import WitGraph.Proofs.Success

namespace WitGraph.Document

/-! ### Lists of elements -/

/-- The place of a fault does not matter to success. -/
theorem within_eq_ok_iff {α : Type} {place : Place} {result : Except Fault α} {value : α} :
    within place result = .ok value ↔ result = .ok value := by
  cases result <;> simp [within]

/-- A list of elements is linked if each of them is. -/
theorem linkAll_eq_ok_iff {α β : Type} {arena : Arena} {link : α → Except Fault β} {start : Nat}
    {list : List α} {values : List β} :
    linkAll arena link start list = .ok values
      ↔ List.Forall₂ (fun element value => link element = .ok value) list values := by
  induction list generalizing start values with
  | nil => simp [linkAll, eq_comm]
  | cons first rest ih =>
    rw [linkAll, Success.bind_eq_ok_iff, List.forall₂_cons_left_iff]
    constructor
    · rintro ⟨value, linkedFirst, others⟩
      obtain ⟨values, linkedOthers, same⟩ := Success.bind_eq_ok_iff.mp others
      exact ⟨value, values, within_eq_ok_iff.mp linkedFirst, ih.mp linkedOthers,
        (Success.pure_eq_ok_iff.mp same).symm⟩
    · rintro ⟨value, values, linkedFirst, others, rfl⟩
      exact ⟨value, within_eq_ok_iff.mpr linkedFirst,
        Success.bind_eq_ok_iff.mpr ⟨values, ih.mpr others, rfl⟩⟩

/-- Names are read if each of them is. -/
theorem readNames_eq_ok_iff {start : Nat} {list : List PackageRecord} {names : List Ident} :
    readNames start list = .ok names
      ↔ List.Forall₂ (fun record name => Ident.parse record.name = .ok name) list names := by
  induction list generalizing start names with
  | nil => simp [readNames, eq_comm]
  | cons first rest ih =>
    rw [readNames, List.forall₂_cons_left_iff]
    cases Ident.parse first.name with
    | error fault => simp
    | ok name =>
      constructor
      · intro others
        obtain ⟨names, readOthers, same⟩ := Success.bind_eq_ok_iff.mp others
        exact ⟨name, names, rfl, ih.mp readOthers, (Success.pure_eq_ok_iff.mp same).symm⟩
      · rintro ⟨_, names, ⟨rfl⟩, others, rfl⟩
        exact Success.bind_eq_ok_iff.mpr ⟨names, ih.mpr others, rfl⟩

/-- The fault of an element does not matter to success. -/
theorem lift_eq_ok_iff {α : Type} {result : Except Fault α} {value : α} :
    lift result = .ok value ↔ result = .ok value := by
  cases result <;> simp [lift]

/-- The name of a linked package is the one it was linked with. -/
theorem name_of_linkPackage {document : Document} {name : Ident} {record : PackageRecord}
    {package : Package} (linked : document.linkPackage name record = .ok package) :
    package.name = name := by
  obtain ⟨_, -, rest⟩ := Success.bind_eq_ok_iff.mp linked
  obtain ⟨_, -, returned⟩ := Success.bind_eq_ok_iff.mp rest
  rw [← Success.pure_eq_ok_iff.mp returned]

/-- A package record is linked to a package under its own name. -/
def LinksPackage (document : Document) (record : PackageRecord) (package : Package) : Prop :=
  Ident.parse record.name = .ok package.name
    ∧ document.linkPackage package.name record = .ok package

/-- Packages are linked in two passes, first their names and then the rest. -/
theorem packages_iff {document : Document} {records : List PackageRecord}
    {packages : List Package} :
    List.Forall₂ document.LinksPackage records packages ↔
      ∃ names, List.Forall₂ (fun record name => Ident.parse record.name = .ok name) records names
        ∧ List.Forall₂ (fun pair package => document.linkPackage pair.1 pair.2 = .ok package)
            (names.zip records) packages := by
  induction records generalizing packages with
  | nil => simp [eq_comm]
  | cons record rest ih =>
    constructor
    · intro pairs
      obtain ⟨package, others, ⟨named, linked⟩, restPairs, rfl⟩ :=
        List.forall₂_cons_left_iff.mp pairs
      obtain ⟨names, areNames, areLinked⟩ := ih.mp restPairs
      exact ⟨package.name :: names, .cons named areNames, .cons linked areLinked⟩
    · rintro ⟨names, areNames, areLinked⟩
      obtain ⟨name, otherNames, named, restNames, rfl⟩ := List.forall₂_cons_left_iff.mp areNames
      rw [List.zip_cons_cons] at areLinked
      obtain ⟨package, others, linked, restLinked, rfl⟩ := List.forall₂_cons_left_iff.mp areLinked
      have same := name_of_linkPackage linked
      subst same
      exact .cons ⟨named, linked⟩ (ih.mpr ⟨otherNames, restNames, restLinked⟩)

/-! ### What depends on the sizes alone -/

section Sizes

variable {document other : Document} (size : other.size = document.size)
include size

theorem linkId_congr : other.linkId = document.linkId := by
  funext arena index
  rw [linkId, linkId, size]

theorem linkPackage?_congr : other.linkPackage? = document.linkPackage? := by
  funext index
  cases index with
  | none => rfl
  | some index => rw [linkPackage?, linkPackage?, linkId_congr size]

theorem linkIndices_congr : other.linkIndices = document.linkIndices := by
  funext arena map
  rw [linkIndices, linkIndices, linkId_congr size]

theorem linkOwner_congr : other.linkOwner = document.linkOwner := by
  funext owner
  unfold linkOwner
  rw [linkId_congr size]

/-- Packages do not refer to types or functions, so documents of the same sizes link them alike. -/
theorem linksPackage_congr : other.LinksPackage = document.LinksPackage := by
  funext record package
  rw [LinksPackage, LinksPackage, linkPackage, linkPackage, linkIndices_congr size]

end Sizes

/-! ### Whole documents -/

/-- The records stand for the entities of the graph when they are linked in a document. -/
structure LinkedIn (document records : Document) (graph : Graph) : Prop where
  types : List.Forall₂ (fun record type => document.linkType record = .ok type) records.types
    graph.types.toList
  interfaces : List.Forall₂ (fun record interface => document.linkInterface record = .ok interface)
    records.interfaces graph.interfaces.toList
  worlds : List.Forall₂ (fun record world => document.linkWorld record = .ok world) records.worlds
    graph.worlds.toList
  packages : List.Forall₂ document.LinksPackage records.packages graph.packages.toList

/-- The records of the document stand for the entities of the graph, and its packages are entered by
name. -/
structure Linked (document : Document) (graph : Graph) : Prop
    extends document.LinkedIn document graph where
  names : Graph.enterNames {} 0 graph.packages.toList = (graph.packageNames, none)

theorem LinkedIn.size_eq {document records : Document} {graph : Graph}
    (linked : document.LinkedIn records graph) (arena : Arena) :
    records.size arena = graph.size arena := by
  cases arena with
  | package => exact linked.packages.length_eq
  | world => exact linked.worlds.length_eq
  | interface => exact linked.interfaces.length_eq
  | type => exact linked.types.length_eq

/-- Packages are entered by name if no two of them share one. -/
theorem index_eq_ok_iff {unnamed graph : Graph} :
    (match unnamed.indexPackageNames with
      | (graph, none) => (return graph : Except DecodeFault Graph)
      | (_, some name) => throw (DecodeFault.repeatedPackage name)) = .ok graph
      ↔ ∃ names, Graph.enterNames {} 0 unnamed.packages.toList = (names, none)
        ∧ { unnamed with packageNames := names } = graph := by
  unfold Graph.indexPackageNames
  obtain ⟨names, repeated⟩ := Graph.enterNames {} 0 unnamed.packages.toList
  cases repeated with
  | none =>
    rw [Success.pure_eq_ok_iff]
    constructor
    · intro same
      exact ⟨names, rfl, same⟩
    · rintro ⟨_, ⟨rfl⟩, same⟩
      exact same
  | some name =>
    constructor
    · intro failed
      cases failed
    · rintro ⟨_, failed, -⟩
      cases failed

/-- A document is linked to a graph exactly if its records are linked to the entities. -/
theorem link_eq_ok_iff {document : Document} {graph : Graph} :
    document.link = .ok graph ↔ document.Linked graph := by
  unfold link
  simp only [Success.bind_eq_ok_iff, readNames_eq_ok_iff, lift_eq_ok_iff, linkAll_eq_ok_iff]
  constructor
  · rintro ⟨names, areNames, types, areTypes, interfaces, areInterfaces, worlds, areWorlds, packages,
      arePackages, indexed⟩
    obtain ⟨map, entered, rfl⟩ := index_eq_ok_iff.mp indexed
    exact ⟨⟨areTypes, areInterfaces, areWorlds, packages_iff.mpr ⟨names, areNames, arePackages⟩⟩,
      entered⟩
  · intro linked
    obtain ⟨names, areNames, arePackages⟩ := packages_iff.mp linked.packages
    exact ⟨names, areNames, _, linked.types, _, linked.interfaces, _, linked.worlds, _, arePackages,
      index_eq_ok_iff.mpr ⟨_, linked.names, rfl⟩⟩

end WitGraph.Document
