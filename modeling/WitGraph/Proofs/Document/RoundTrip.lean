/-
**A graph is read back from its document.**

* `ofJson?_toJson`: the JSON of a graph that has been read is read and linked to the same graph;
* `Graph.ofText_text`: so is its text.

The two documents are not the same, for the first one may state things in other ways. They have the
same sizes, and linking depends on nothing else.
-/

import WitGraph.Proofs.Document.Elements
import WitGraph.Proofs.Document.Plain
import WitGraph.Proofs.Document.Types

namespace WitGraph

namespace Document

open Json (Fields)

theorem exists_of_ofJson? {json : Json} {document : Document} (found : ofJson? json = some document) :
    (∃ json, Json.items? readWorld? json = some document.worlds)
      ∧ (∃ json, Json.items? readInterface? json = some document.interfaces)
      ∧ (∃ json, Json.items? readType? json = some document.types)
      ∧ ∃ json, Json.items? readPackage? json = some document.packages := by
  simp only [ofJson?, Option.bind_eq_bind, Option.bind_eq_some_iff, Option.pure_def,
    Option.some.injEq] at found
  obtain ⟨_, -, worlds, areWorlds, interfaces, areInterfaces, types, areTypes, packages,
    arePackages, rfl⟩ := found
  have nothing {α : Type} (read : Json → Option α) : Json.items? read (.array []) = some [] := rfl
  exact ⟨Json.exists_of_optional? (nothing _) areWorlds,
    Json.exists_of_optional? (nothing _) areInterfaces,
    Json.exists_of_optional? (nothing _) areTypes, Json.exists_of_optional? (nothing _) arePackages⟩

/-- The lists of a document that is written are read as they stand. -/
theorem ofJson?_record {worlds interfaces types packages : Json} {document : Document}
    (areWorlds : Json.items? readWorld? worlds = some document.worlds)
    (areInterfaces : Json.items? readInterface? interfaces = some document.interfaces)
    (areTypes : Json.items? readType? types = some document.types)
    (arePackages : Json.items? readPackage? packages = some document.packages) :
    ofJson? (.record [("worlds", worlds), ("interfaces", interfaces), ("types", types),
      ("packages", packages)]) = some document := by
  have fields := Json.fields?_record ["worlds", "interfaces", "types", "packages"]
    ["worlds", "interfaces", "types", "packages"]
    [("worlds", worlds), ("interfaces", interfaces), ("types", types), ("packages", packages)]
    (List.Sublist.refl _) (by simp) (by simp)
  simp [ofJson?, fields, Fields.optional?, List.lookup_cons, areWorlds, areInterfaces, areTypes,
    arePackages]

/-- A graph is written as records that are linked to it in every document of the right size. -/
theorem exists_records {json : Json} {document rewritten : Document} {graph : Graph}
    (found : ofJson? json = some document) (linked : document.Linked graph)
    (sameSize : ∀ arena, rewritten.size arena = document.size arena) :
    ∃ records, ofJson? graph.toJson = some records ∧ rewritten.LinkedIn records graph := by
  -- the four lists are restored apart from each other
  obtain ⟨⟨_, readWorlds⟩, ⟨_, readInterfaces⟩, ⟨_, readTypes⟩, ⟨_, readPackages⟩⟩ :=
    exists_of_ofJson? found
  obtain ⟨worlds, areWorlds, worldLinks⟩ := Restores.exists_items
    (fun _ _ _ found linked => restores_world sameSize found linked) readWorlds linked.worlds
  obtain ⟨interfaces, areInterfaces, interfaceLinks⟩ := Restores.exists_items
    (fun _ _ _ found linked => restores_interface sameSize found linked) readInterfaces linked.interfaces
  obtain ⟨types, areTypes, typeLinks⟩ := Restores.exists_items
    (fun _ _ _ found linked => restores_type sameSize found linked) readTypes linked.types
  obtain ⟨packages, arePackages, packageLinks⟩ := Restores.exists_items
    (fun _ _ _ found linked => exists_package sameSize found linked) readPackages linked.packages
  exact ⟨⟨worlds, interfaces, types, packages⟩,
    ofJson?_record areWorlds areInterfaces areTypes arePackages,
    typeLinks, interfaceLinks, worldLinks, packageLinks⟩

/-- The JSON of a graph that has been read is read and linked to the same graph. -/
theorem ofJson?_toJson {json : Json} {document : Document} {graph : Graph}
    (found : ofJson? json = some document) (linked : document.link = .ok graph) :
    ∃ again, ofJson? graph.toJson = some again ∧ again.link = .ok graph := by
  have linked := link_eq_ok_iff.mp linked
  obtain ⟨again, readAgain, linkedAgain⟩ := exists_records found linked fun _ => rfl
  have sameSize (arena : Arena) : again.size arena = document.size arena :=
    (linkedAgain.size_eq arena).trans (linked.size_eq arena).symm
  -- the records are the same ones, whatever they are linked in
  obtain ⟨records, readRecords, linkedRecords⟩ := exists_records found linked sameSize
  cases readAgain.symm.trans readRecords
  exact ⟨again, readAgain, link_eq_ok_iff.mpr ⟨linkedRecords, linked.names⟩⟩

end Document

namespace Graph

/-- What is read of the text of a graph is what is read of its JSON. -/
theorem ofText_text_of_ofJson? {graph other : Graph} {document : Document}
    (found : Document.ofJson? graph.toJson = some document) (linked : document.link = .ok other) :
    ofText graph.text = .ok other := by
  have parsed : Json.parse? (Text.symbols graph.text) = some graph.toJson :=
    Json.parse?_render Json.indented_isBlank graph.isPlain_toJson
  simp only [ofText, ofSymbols, Document.ofSymbols?, parsed, Option.bind_some, found, linked]

/-- What has been read has been read as JSON and linked. -/
theorem exists_of_ofSymbols {symbols : List Text.Symbol} {graph : Graph}
    (accepted : ofSymbols symbols = .ok graph) :
    ∃ json document, Document.ofJson? json = some document ∧ document.link = .ok graph := by
  unfold ofSymbols at accepted
  split at accepted
  · cases accepted
  · rename_i document read
    obtain ⟨json, -, found⟩ := Option.bind_eq_some_iff.mp read
    exact ⟨json, document, found, accepted⟩

/-- A graph that has been read from symbols is read back from its text. -/
theorem ofText_text_of_ofSymbols {symbols : List Text.Symbol} {graph : Graph}
    (accepted : ofSymbols symbols = .ok graph) : ofText graph.text = .ok graph := by
  obtain ⟨json, document, found, linked⟩ := exists_of_ofSymbols accepted
  obtain ⟨again, readAgain, linkedAgain⟩ := Document.ofJson?_toJson found linked
  exact ofText_text_of_ofJson? readAgain linkedAgain

/-! ### A document -/

/-- What is read of some lines of text is what is read of their characters. -/
theorem ofText_intercalate (lines : List String) :
    ofText ("\n".intercalate lines)
      = ofSymbols ((['\n'].intercalate (lines.map String.toList)).map Text.Symbol.char) := by
  rw [ofText, Text.symbols, String.toList_intercalate]
  rfl

namespace Sample

/-- The lines of a document with two types in a circle, a method, an interface under its position and
one under a record, and a result in the form of a list. -/
def lines : List String := [
  "\x7b\"worlds\":[\x7b\"name\":\"w\",\"package\":0,",
  "\"imports\":\x7b\"interface-0\":\x7b\"interface\":0\x7d,",
  "\"interface-1\":\x7b\"interface\":\x7b\"id\":1\x7d\x7d\x7d\x7d],",
  "\"interfaces\":[\x7b\"name\":\"i\",\"package\":0,",
  "\"types\":\x7b\"t\":0,\"r\":1,\"blob\":2\x7d,",
  "\"functions\":\x7b\"[method]blob.read\":\x7b",
  "\"name\":\"[method]blob.read\",\"kind\":\x7b\"method\":2\x7d,",
  "\"params\":[\x7b\"name\":\"self\",\"type\":3\x7d],",
  "\"results\":[\x7b\"type\":\"u8\"\x7d]\x7d\x7d\x7d,",
  "\x7b\"name\":\"j\",\"package\":1\x7d],",
  "\"types\":[\x7b\"name\":\"t\",\"kind\":\x7b\"list\":1\x7d,",
  "\"owner\":\x7b\"interface\":0\x7d\x7d,\x7b\"name\":\"r\",",
  "\"kind\":\x7b\"option\":0\x7d,\"owner\":\x7b\"interface\":0\x7d\x7d,",
  "\x7b\"name\":\"blob\",\"kind\":\"resource\",",
  "\"owner\":\x7b\"interface\":0\x7d\x7d,",
  "\x7b\"kind\":\x7b\"handle\":\x7b\"borrow\":2\x7d\x7d\x7d],",
  "\"packages\":[\x7b\"name\":\"a:%list@1.0.0\",",
  "\"interfaces\":\x7b\"i\":0\x7d,\"worlds\":\x7b\"w\":0\x7d\x7d,",
  "\x7b\"name\":\"c:d\",\"interfaces\":\x7b\"j\":1\x7d\x7d]\x7d"]

/-- The text of the document. -/
def text : String := "\n".intercalate lines

/-- The method of the interface `i`. -/
def read : Function where
  name := "[method]blob.read"
  kind := .method ⟨2⟩
  params := [⟨"self", .defined ⟨3⟩⟩]
  results := .anonymous (.primitive .u8)

/-- The graph that the document describes. -/
def graph : Graph where
  worlds := #[
    { name := "w", package := some ⟨0⟩
      imports := .ofList [(.interface ⟨0⟩, .interface ⟨0⟩ .unknown),
        (.interface ⟨1⟩, .interface ⟨1⟩ .unknown)] }]
  interfaces := #[
    { name := some "i", package := some ⟨0⟩
      types := .ofList [("t", ⟨0⟩), ("r", ⟨1⟩), ("blob", ⟨2⟩)]
      functions := .ofList [("[method]blob.read", read)] },
    { name := some "j", package := some ⟨1⟩ }]
  types := #[
    { name := some "t", kind := .list (.defined ⟨1⟩), owner := .interface ⟨0⟩ },
    { name := some "r", kind := .option (.defined ⟨0⟩), owner := .interface ⟨0⟩ },
    { name := some "blob", kind := .resource, owner := .interface ⟨0⟩ },
    { kind := .borrow ⟨2⟩ }]
  packages := #[
    { name := { ns := "a", package := "list", version := some ⟨1, 0, 0, [], []⟩ }
      interfaces := .ofList [("i", ⟨0⟩)], worlds := .ofList [("w", ⟨0⟩)] },
    { name := { ns := "c", package := "d" }, interfaces := .ofList [("j", ⟨1⟩)] }]
  packageNames := .ofList [
    ({ ns := "a", package := "list", version := some ⟨1, 0, 0, [], []⟩ }, ⟨0⟩),
    ({ ns := "c", package := "d" }, ⟨1⟩)]

theorem accepted : ofText text = .ok graph := by
  rw [text, ofText_intercalate]
  decide +kernel

end Sample

/-! ### The round trip -/

/-- **A graph that has been read is read back from its text, which is therefore written again.** -/
theorem ofText_text {text : String} {graph : Graph} (accepted : ofText text = .ok graph) :
    ofText graph.text = .ok graph ∧ (ofText graph.text).map Graph.text = .ok graph.text := by
  have again : ofText graph.text = .ok graph := ofText_text_of_ofSymbols accepted
  refine ⟨again, ?_⟩
  rw [again]
  rfl

/-- The graph of the document is read back from its text. -/
theorem ofText_text_sample :
    ofText Sample.text = .ok Sample.graph
      ∧ ofText Sample.graph.text = .ok Sample.graph
      ∧ (ofText Sample.graph.text).map Graph.text = .ok Sample.graph.text :=
  ⟨Sample.accepted, ofText_text Sample.accepted⟩

end Graph

end WitGraph
