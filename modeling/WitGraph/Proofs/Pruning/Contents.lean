/-
**What pruning leaves of an item.**

What a kept item contains is what it contains in the source with some entries left out
(`Entity.Trims`, `exists_contents?`). Renaming it with distinct ids for distinct items merges no
entries (`World.entries_side_rename`), so the result is a copy of the original, perhaps with fewer
entries (`isCopy_of_trims`).
-/

import WitGraph.Proofs.Items
import WitGraph.Proofs.Renaming
import WitGraph.Pruning

namespace WitGraph

namespace Entity

/-! ### Leaving out entries -/

/-- The first entity is the second one without some entries of its maps of interfaces and worlds or
of its imports and exports. -/
def Trims : {arena : Arena} → Entity arena → Entity arena → Prop
  | .package => fun (trimmed original : Package) =>
    trimmed.interfaces.entries.Sublist original.interfaces.entries
      ∧ trimmed.worlds.entries.Sublist original.worlds.entries
      ∧ trimmed = { original with interfaces := trimmed.interfaces, worlds := trimmed.worlds }
  | .world => fun (trimmed original : World) =>
    trimmed.imports.entries.Sublist original.imports.entries
      ∧ trimmed.exports.entries.Sublist original.exports.entries
      ∧ trimmed = { original with imports := trimmed.imports, exports := trimmed.exports }
  | .interface => fun (trimmed original : Interface) => trimmed = original
  | .type => fun (trimmed original : TypeDef) => trimmed = original

theorem Trims.refl {arena : Arena} (entity : Entity arena) : entity.Trims entity := by
  cases arena with
  | package => exact ⟨List.Sublist.refl _, List.Sublist.refl _, rfl⟩
  | world => exact ⟨List.Sublist.refl _, List.Sublist.refl _, rfl⟩
  | interface => rfl
  | type => rfl

/-- Leaving out entries adds no links. -/
theorem Trims.links_subset {arena : Arena} {trimmed original : Entity arena}
    (trims : trimmed.Trims original) : trimmed.links ⊆ original.links := by
  cases arena with
  | package =>
    obtain ⟨interfaces, worlds, -⟩ := trims
    have fewer {arena : Arena} {first second : OrderedMap String (Id arena)}
        (sub : first.entries.Sublist second.entries) :
        first.values.map Id.item ⊆ second.values.map Id.item :=
      ((sub.map Prod.snd).map Id.item).subset
    exact List.append_subset.mpr
      ⟨List.Subset.trans (fewer interfaces) (List.subset_append_left _ _),
        List.Subset.trans (fewer worlds) (List.subset_append_right _ _)⟩
  | world =>
    obtain ⟨imports, exports, same⟩ := trims
    have samePackage : World.package trimmed = World.package original :=
      (congrArg World.package same).trans rfl
    have fewer : (World.entries trimmed).Sublist (World.entries original) := imports.append exports
    intro link member
    rcases List.mem_append.mp member with inEntries | inPackage
    · obtain ⟨entry, isEntry, inside⟩ := List.mem_flatMap.mp inEntries
      exact List.mem_append_left _ (List.mem_flatMap.mpr ⟨entry, fewer.subset isEntry, inside⟩)
    · rw [samePackage] at inPackage
      exact List.mem_append_right _ inPackage
  | interface =>
    cases (trims : trimmed = original)
    exact List.Subset.refl _
  | type =>
    cases (trims : trimmed = original)
    exact List.Subset.refl _

/-! ### Copies -/

/-- The first entity is the second one with its ids renamed, perhaps with fewer entries. -/
def IsCopy (via : Renaming) : {arena : Arena} → Entity arena → Entity arena → Prop
  | .package => fun (copy original : Package) =>
    copy.interfaces.entries.Sublist (original.interfaces.mapValues via).entries
      ∧ copy.worlds.entries.Sublist (original.worlds.mapValues via).entries
      ∧ copy = { original with interfaces := copy.interfaces, worlds := copy.worlds }
  | .world => fun (copy original : World) =>
    copy.imports.entries.Sublist (original.imports.entries.map (WorldItem.renameEntry via))
      ∧ copy.exports.entries.Sublist (original.exports.entries.map (WorldItem.renameEntry via))
      ∧ copy = { original with
          imports := copy.imports, exports := copy.exports, package := original.package.map via }
  | .interface => fun (copy original : Interface) => copy = original.rename via
  | .type => fun (copy original : TypeDef) => copy = original.rename via

/-- The imports and the exports of a copy are those of the original, renamed and perhaps fewer. -/
theorem IsCopy.sublist_side {via : Renaming} {copy original : World}
    (isCopy : @IsCopy via .world copy original) (side : Side) :
    (copy.side side).entries.Sublist
      ((original.side side).entries.map (WorldItem.renameEntry via)) := by
  obtain ⟨imports, exports, -⟩ := isCopy
  cases side with
  | imports => exact imports
  | exports => exact exports

/-- The entries of a copy of a world are renamed entries of the world. -/
theorem IsCopy.exists_entry {via : Renaming} {copy original : World}
    (isCopy : @IsCopy via .world copy original) {entry : WorldKey × WorldItem}
    (member : entry ∈ copy.entries) :
    ∃ before ∈ original.entries, WorldItem.renameEntry via before = entry := by
  have entries : copy.entries.Sublist (original.entries.map (WorldItem.renameEntry via)) := by
    rw [World.entries, World.entries, List.map_append]
    exact (isCopy.sublist_side .imports).append (isCopy.sublist_side .exports)
  exact List.mem_map.mp (entries.subset member)

/-- Renaming what is left of an entity gives a copy of it, if distinct links stay distinct. -/
theorem isCopy_of_trims {via : Renaming} {arena : Arena} {trimmed original : Entity arena}
    (trims : trimmed.Trims original) (separates : via.Separates trimmed.links) :
    (trimmed.rename via).IsCopy via original := by
  cases arena with
  | package =>
    obtain ⟨interfaces, worlds, same⟩ := trims
    refine ⟨interfaces.map _, worlds.map _, ?_⟩
    show Package.rename via trimmed = _
    rw [same]
    rfl
  | world =>
    obtain ⟨imports, exports, same⟩ := trims
    refine ⟨?_, ?_, ?_⟩
    · exact (World.entries_side_rename separates .imports) ▸ imports.map _
    · exact (World.entries_side_rename separates .exports) ▸ exports.map _
    · show World.rename via trimmed = _
      rw [same]
      rfl
  | interface =>
    cases (trims : trimmed = original)
    rfl
  | type =>
    cases (trims : trimmed = original)
    rfl

end Entity

/-! ### The contents of kept items -/

/-- A kept item has contents, which are those it has in the source without some entries. -/
theorem Pruning.exists_contents? (pruning : Pruning) (isKept : Item → Bool) {item : Item}
    {original : Entity item.arena} (found : pruning.graph.entity? item.id = some original) :
    ∃ trimmed, pruning.contents? isKept item = some trimmed ∧ trimmed.Trims original := by
  obtain ⟨arena, index⟩ := item
  cases arena with
  | package =>
    refine ⟨prunePackage isKept original, ?_, List.filter_sublist, List.filter_sublist, rfl⟩
    exact Option.map_eq_some_iff.mpr ⟨original, found, rfl⟩
  | world =>
    refine ⟨pruning.pruneWorld ⟨index⟩ original, ?_, List.filter_sublist, List.filter_sublist, rfl⟩
    exact Option.map_eq_some_iff.mpr ⟨original, found, rfl⟩
  | interface => exact ⟨original, found, rfl⟩
  | type => exact ⟨original, found, rfl⟩

end WitGraph
