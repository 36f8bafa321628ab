/-
**What a depth-first search finds.**

A search that may go deep enough enters exactly what its roots reach:

* `Explores` says what a search from some roots adds to the progress made before it, and
  `Explores.trans` and `Explores.enter` put such searches together;
* `explores_visitAll` is the statement for `visitAll`, by induction on the depth;
* `hasEntered_visitAll_iff`, `mem_discovery_iff` and `postordered_visitAll` are what is left of it for
  a search that starts afresh;
* `goesAlike_visitAll`: what a search finds, and in which order, depends only on what had been entered,
  and `visitAll_succ`: not on the depth, once this is enough.

What the search enters is also finished, a vertex after what follows it (`Postordered`). Circles are
the only exception: a follower that is finished later reaches the vertex back. The first root is finished
after everything that it reaches, circles or not (`exists_finished_cons`).

A depth is enough if it exceeds the number of vertices that have successors and have not been
entered (`unentered`): only these are searched further, and none of them twice.
-/

import Mathlib.Data.List.Basic
import Mathlib.Logic.Relation
import WitGraph.Search.DepthFirst

namespace WitGraph

/-! ### Paths and the order that they induce -/

namespace Search

variable {α : Type} {next : α → List α}

/-- A vertex leads to another one, by going from a vertex to what follows it. -/
abbrev Reaches (next : α → List α) : α → α → Prop :=
  Relation.ReflTransGen fun vertex follower => follower ∈ next vertex

/-- What vertices lead to is among them if what follows them is. -/
theorem mem_of_reaches {vertices : List α}
    (closed : ∀ vertex ∈ vertices, ∀ follower ∈ next vertex, follower ∈ vertices) {first last : α}
    (member : first ∈ vertices) (path : Reaches next first last) : last ∈ vertices := by
  induction path with
  | refl => exact member
  | tail _ follows ih => exact closed _ ih _ follows

/-- The list, the latest first, has what follows a vertex before the vertex, if that had not been
`settled` before and does not reach the vertex back. -/
def Postordered (next : α → List α) (settled : α → Prop) : List α → Prop
  | [] => True
  | vertex :: earlier =>
    (∀ follower ∈ next vertex,
        follower ∈ earlier ∨ settled follower ∨ Reaches next follower vertex)
      ∧ Postordered next settled earlier

theorem Postordered.append {settled between : α → Prop} {late early : List α}
    (later : Postordered next between late) (first : Postordered next settled early)
    (known : ∀ vertex, between vertex → vertex ∈ early ∨ settled vertex) :
    Postordered next settled (late ++ early) := by
  induction late with
  | nil => exact first
  | cons vertex rest ih =>
    refine ⟨fun follower follows => ?_, ih later.2⟩
    rcases later.1 follower follows with inRest | isKnown | back
    · exact Or.inl (List.mem_append_left _ inRest)
    · exact (known follower isKnown).imp (List.mem_append_right _) Or.inl
    · exact Or.inr (Or.inr back)

/-- What follows a vertex and does not reach it back is among the earlier ones. -/
theorem Postordered.mem_of_not_reaches {later earlier : List α} {vertex follower : α}
    (ordered : Postordered next (fun _ => False) (later ++ vertex :: earlier))
    (follows : follower ∈ next vertex) (apart : ¬ Reaches next follower vertex) :
    follower ∈ earlier := by
  induction later with
  | nil =>
    rcases ordered.1 follower follows with isEarlier | isSettled | back
    · exact isEarlier
    · exact isSettled.elim
    · exact absurd back apart
  | cons _ _ ih => exact ih ordered.2

/-- What is listed before a vertex has a lower place in the list. -/
theorem idxOf_lt_of_mem [DecidableEq α] {before after : List α} {vertex other : α}
    (once : (before ++ vertex :: after).Nodup) (member : other ∈ before) :
    (before ++ vertex :: after).idxOf other < (before ++ vertex :: after).idxOf vertex := by
  have fresh : vertex ∉ before := fun inBefore =>
    (List.nodup_append.mp once).2.2 vertex inBefore vertex (List.mem_cons_self ..) rfl
  rw [List.idxOf_append_of_mem member, List.idxOf_append_of_notMem fresh]
  exact Nat.lt_of_lt_of_le (List.idxOf_lt_length_of_mem member) (Nat.le_add_right _ _)

/-- A vertex that reaches everything in the list need not count as settled. -/
theorem Postordered.of_reached {settled wider : α → Prop} {found : List α} {vertex : α}
    (ordered : Postordered next wider found)
    (known : ∀ other, wider other → other = vertex ∨ settled other)
    (reached : ∀ other ∈ found, Reaches next vertex other) : Postordered next settled found := by
  induction found with
  | nil => trivial
  | cons first rest ih =>
    refine ⟨fun follower follows => ?_, ih ordered.2 fun other inRest =>
      reached other (List.mem_cons_of_mem _ inRest)⟩
    rcases ordered.1 follower follows with inRest | isKnown | back
    · exact Or.inl inRest
    · rcases known follower isKnown with rfl | isSettled
      · exact Or.inr (Or.inr (reached first (List.mem_cons_self ..)))
      · exact Or.inr (Or.inl isSettled)
    · exact Or.inr (Or.inr back)

end Search

variable {α : Type} [Numbered α]

/-! ### Marks of progress -/

namespace Progress

@[simp] theorem hasEntered_enter_iff (progress : Progress α) (vertex other : α) :
    (progress.enter vertex).hasEntered other = true
      ↔ other = vertex ∨ progress.hasEntered other = true := by
  have sameNumber : Numbered.number other = Numbered.number vertex ↔ other = vertex :=
    ⟨Numbered.injective, fun same => congrArg _ same⟩
  simp [hasEntered, enter, Marks.has_mark, sameNumber]

@[simp] theorem hasEntered_finish (progress : Progress α) (vertex other : α) :
    (progress.finish vertex).hasEntered other = progress.hasEntered other := rfl

@[simp] theorem hasEntered_empty (vertex : α) : ({} : Progress α).hasEntered vertex = false := by
  simp [hasEntered]

/-- How many of some vertices have not been entered. -/
def unentered (progress : Progress α) (vertices : List α) : Nat :=
  vertices.countP fun vertex => !progress.hasEntered vertex

theorem unentered_le {before after : Progress α} (vertices : List α)
    (kept : ∀ vertex, before.hasEntered vertex = true → after.hasEntered vertex = true) :
    after.unentered vertices ≤ before.unentered vertices := by
  refine List.countP_mono_left fun vertex _ fresh => ?_
  have missing : ¬ after.hasEntered vertex = true := by simpa using fresh
  simpa using fun entered => missing (kept vertex entered)

theorem unentered_enter_lt {progress : Progress α} {vertices : List α} {vertex : α}
    (member : vertex ∈ vertices) (fresh : progress.hasEntered vertex ≠ true) :
    (progress.enter vertex).unentered vertices < progress.unentered vertices := by
  induction vertices with
  | nil => cases member
  | cons first rest ih =>
    have others : (progress.enter vertex).unentered rest ≤ progress.unentered rest :=
      unentered_le rest fun other entered => (hasEntered_enter_iff _ _ _).mpr (Or.inr entered)
    by_cases same : vertex = first
    · subst same
      simp [unentered, fresh] at others ⊢
      omega
    · have inRest := ih ((List.mem_cons.mp member).resolve_left same)
      have sameFirst : (progress.enter vertex).hasEntered first = progress.hasEntered first := by
        rw [Bool.eq_iff_iff, hasEntered_enter_iff]
        exact or_iff_right (Ne.symm same)
      simp only [unentered, List.countP_cons, sameFirst] at inRest ⊢
      omega

end Progress

namespace Search

/-! ### What a search adds -/

/-- A list of what has been entered after some progress, each vertex once. -/
structure Adds (before after : Progress α) (found : List α) : Prop where
  once : found.Nodup
  mem_iff : ∀ vertex, vertex ∈ found
    ↔ after.hasEntered vertex = true ∧ before.hasEntered vertex ≠ true

/-- The vertex is led to from a root by way of vertices that had not been entered, the root and the
vertex included. -/
def LeadsFresh (next : α → List α) (before : Progress α) (root vertex : α) : Prop :=
  before.hasEntered root ≠ true
    ∧ Relation.ReflTransGen (fun vertex follower =>
      follower ∈ next vertex ∧ before.hasEntered follower ≠ true) root vertex

/-- What a search from some roots adds to the progress `before` it. -/
structure Explores (next : α → List α) (roots : List α) (before after : Progress α) : Prop where
  /-- What had been entered stays entered. -/
  kept : ∀ vertex, before.hasEntered vertex = true → after.hasEntered vertex = true
  /-- The roots are entered. -/
  covered : ∀ root ∈ roots, after.hasEntered root = true
  /-- What follows a vertex that is entered by the search is entered. -/
  closed : ∀ vertex, after.hasEntered vertex = true → before.hasEntered vertex ≠ true →
    ∀ follower ∈ next vertex, after.hasEntered follower = true
  /-- Only what the roots lead to is entered. -/
  led : ∀ vertex, after.hasEntered vertex = true → before.hasEntered vertex ≠ true →
    ∃ root ∈ roots, LeadsFresh next before root vertex
  /-- What is entered is recorded once. -/
  recorded : ∃ found, after.discovered = found ++ before.discovered ∧ Adds before after found
  /-- What is entered is finished, each vertex after what follows it. -/
  finished : ∃ found, after.finished = found ++ before.finished ∧ Adds before after found
    ∧ Postordered next (fun vertex => before.hasEntered vertex = true) found

variable {next : α → List α}

theorem LeadsFresh.reaches {before : Progress α} {root vertex : α}
    (leads : LeadsFresh next before root vertex) : Reaches next root vertex :=
  Relation.ReflTransGen.mono (fun _ _ step => step.1) _ _ leads.2

/-- What has not been entered later on had not been entered before. -/
theorem LeadsFresh.of_kept {before between : Progress α} {root vertex : α}
    (leads : LeadsFresh next between root vertex)
    (kept : ∀ vertex, before.hasEntered vertex = true → between.hasEntered vertex = true) :
    LeadsFresh next before root vertex :=
  ⟨fun entered => leads.1 (kept root entered),
    Relation.ReflTransGen.mono (fun _ follower step =>
      ⟨step.1, fun entered => step.2 (kept follower entered)⟩) _ _ leads.2⟩

/-- Only what the roots reach is entered. -/
theorem Explores.reached {roots : List α} {before after : Progress α}
    (explored : Explores next roots before after) (vertex : α)
    (entered : after.hasEntered vertex = true) (fresh : before.hasEntered vertex ≠ true) :
    ∃ root ∈ roots, Reaches next root vertex := by
  obtain ⟨root, member, leads⟩ := explored.led vertex entered fresh
  exact ⟨root, member, leads.reaches⟩

theorem adds_nil (progress : Progress α) : Adds progress progress [] :=
  ⟨List.nodup_nil, by simp⟩

theorem Adds.perm {before after : Progress α} {found other : List α}
    (adds : Adds before after found) (same : found.Perm other) : Adds before after other :=
  ⟨same.nodup_iff.mp adds.once, fun vertex => by rw [← same.mem_iff, adds.mem_iff]⟩

theorem Adds.finish {before after : Progress α} {found : List α} (adds : Adds before after found)
    (vertex : α) : Adds before (after.finish vertex) found :=
  ⟨adds.once, adds.mem_iff⟩

theorem Adds.append {before between after : Progress α} {early late : List α}
    (first : Adds before between early) (second : Adds between after late)
    (firstKept : ∀ vertex, before.hasEntered vertex = true → between.hasEntered vertex = true)
    (secondKept : ∀ vertex, between.hasEntered vertex = true → after.hasEntered vertex = true) :
    Adds before after (late ++ early) where
  once := by
    refine List.nodup_append.mpr ⟨second.once, first.once, ?_⟩
    rintro vertex inLate _ inEarly rfl
    exact ((second.mem_iff vertex).mp inLate).2 ((first.mem_iff vertex).mp inEarly).1
  mem_iff vertex := by
    rw [List.mem_append, first.mem_iff, second.mem_iff]
    constructor
    · rintro (⟨entered, notEarly⟩ | ⟨entered, fresh⟩)
      · exact ⟨entered, fun early => notEarly (firstKept vertex early)⟩
      · exact ⟨secondKept vertex entered, fresh⟩
    · rintro ⟨entered, fresh⟩
      by_cases early : between.hasEntered vertex = true
      · exact Or.inr ⟨early, fresh⟩
      · exact Or.inl ⟨entered, early⟩

theorem adds_enter {progress : Progress α} {vertex : α}
    (fresh : progress.hasEntered vertex ≠ true) : Adds progress (progress.enter vertex) [vertex] where
  once := List.pairwise_singleton _ vertex
  mem_iff other := by
    rw [List.mem_singleton, Progress.hasEntered_enter_iff]
    constructor
    · rintro rfl
      exact ⟨Or.inl rfl, fresh⟩
    · rintro ⟨same | entered, notBefore⟩
      · exact same
      · exact absurd entered notBefore

/-- A search from no roots adds nothing. -/
theorem Explores.refl (progress : Progress α) : Explores next [] progress progress where
  kept _ entered := entered
  covered _ member := by cases member
  closed _ entered fresh := absurd entered fresh
  led _ entered fresh := absurd entered fresh
  recorded := ⟨[], rfl, adds_nil progress⟩
  finished := ⟨[], rfl, adds_nil progress, trivial⟩

/-- A search from a vertex that has been entered adds nothing. -/
theorem Explores.of_entered {vertex : α} {progress : Progress α}
    (entered : progress.hasEntered vertex = true) : Explores next [vertex] progress progress where
  kept _ entered := entered
  covered root member := by rwa [List.mem_singleton.mp member]
  closed _ entered fresh := absurd entered fresh
  led _ entered fresh := absurd entered fresh
  recorded := ⟨[], rfl, adds_nil progress⟩
  finished := ⟨[], rfl, adds_nil progress, trivial⟩

/-- One search after another is a search from the roots of both. -/
theorem Explores.trans {firstRoots secondRoots : List α} {before between after : Progress α}
    (first : Explores next firstRoots before between)
    (second : Explores next secondRoots between after) :
    Explores next (firstRoots ++ secondRoots) before after where
  kept vertex entered := second.kept vertex (first.kept vertex entered)
  covered root member := by
    rcases List.mem_append.mp member with inFirst | inSecond
    · exact second.kept root (first.covered root inFirst)
    · exact second.covered root inSecond
  closed vertex entered fresh follower follows := by
    by_cases early : between.hasEntered vertex = true
    · exact second.kept _ (first.closed vertex early fresh follower follows)
    · exact second.closed vertex entered early follower follows
  led vertex entered fresh := by
    by_cases early : between.hasEntered vertex = true
    · obtain ⟨root, member, leads⟩ := first.led vertex early fresh
      exact ⟨root, List.mem_append_left _ member, leads⟩
    · obtain ⟨root, member, leads⟩ := second.led vertex entered early
      exact ⟨root, List.mem_append_right _ member, leads.of_kept first.kept⟩
  recorded := by
    obtain ⟨early, firstRecord, firstAdds⟩ := first.recorded
    obtain ⟨late, secondRecord, secondAdds⟩ := second.recorded
    refine ⟨late ++ early, by rw [secondRecord, firstRecord, List.append_assoc], ?_⟩
    exact firstAdds.append secondAdds first.kept second.kept
  finished := by
    obtain ⟨early, firstRecord, firstAdds, firstOrdered⟩ := first.finished
    obtain ⟨late, secondRecord, secondAdds, secondOrdered⟩ := second.finished
    refine ⟨late ++ early, by rw [secondRecord, firstRecord, List.append_assoc],
      firstAdds.append secondAdds first.kept second.kept, ?_⟩
    refine secondOrdered.append firstOrdered fun vertex entered => ?_
    by_cases isOld : before.hasEntered vertex = true
    · exact Or.inr isOld
    · exact Or.inl ((firstAdds.mem_iff vertex).mpr ⟨entered, isOld⟩)

/-- A vertex that has not been entered, and after it a search from what follows it. -/
theorem Explores.enter {vertex : α} {before after : Progress α}
    (fresh : before.hasEntered vertex ≠ true)
    (inner : Explores next (next vertex) (before.enter vertex) after) :
    Explores next [vertex] before (after.finish vertex) where
  kept other entered := inner.kept other (by simp [entered])
  covered root member := by
    rw [List.mem_singleton.mp member]
    exact inner.kept vertex (by simp)
  closed other entered notBefore follower follows := by
    by_cases same : other = vertex
    · subst same
      exact inner.covered follower follows
    · exact inner.closed other entered (by simp [same, notBefore]) follower follows
  led other entered notBefore := by
    refine ⟨vertex, List.mem_singleton_self vertex, fresh, ?_⟩
    by_cases same : other = vertex
    · rw [same]
    · obtain ⟨root, member, leads⟩ := inner.led other entered (by simp [same, notBefore])
      have kept (other : α) (entered : before.hasEntered other = true) :
          (before.enter vertex).hasEntered other = true := by simp [entered]
      obtain ⟨freshRoot, path⟩ := leads.of_kept kept
      exact Relation.ReflTransGen.head ⟨member, freshRoot⟩ path
  recorded := by
    obtain ⟨found, record, adds⟩ := inner.recorded
    refine ⟨found ++ [vertex], by simp [Progress.finish, record, Progress.enter], ?_⟩
    exact ((adds_enter fresh).append adds (fun other entered => by simp [entered])
      inner.kept).finish vertex
  finished := by
    obtain ⟨found, record, adds, ordered⟩ := inner.finished
    have all : Adds before after (found ++ [vertex]) :=
      (adds_enter fresh).append adds (fun other entered => by simp [entered]) inner.kept
    refine ⟨vertex :: found, congrArg (vertex :: ·) record,
      (all.perm List.perm_append_comm).finish vertex, fun follower follows => ?_, ?_⟩
    · have entered := inner.covered follower follows
      by_cases early : (before.enter vertex).hasEntered follower = true
      · rcases (Progress.hasEntered_enter_iff _ _ _).mp early with rfl | isOld
        · exact Or.inr (Or.inr .refl)
        · exact Or.inr (Or.inl isOld)
      · exact Or.inl ((adds.mem_iff follower).mpr ⟨entered, early⟩)
    · refine ordered.of_reached (fun other => (Progress.hasEntered_enter_iff _ _ _).mp) ?_
      intro other inFound
      obtain ⟨entered, notBefore⟩ := (adds.mem_iff other).mp inFound
      obtain ⟨root, member, path⟩ := inner.reached other entered notBefore
      exact Relation.ReflTransGen.head member path

/-! ### The search -/

variable {vertices : List α}

/-- A search that may go deep enough explores its roots. The vertices are those that have
successors. -/
theorem explores_visitAll (whole : ∀ vertex, next vertex ≠ [] → vertex ∈ vertices)
    (depth : Nat) (progress : Progress α) (roots : List α)
    (enough : progress.unentered vertices < depth) :
    Explores next roots progress (visitAll next depth progress roots) := by
  -- the outer induction goes from a root to what follows it, the inner one from root to root
  induction depth generalizing progress roots with
  | zero => exact absurd enough (Nat.not_lt_zero _)
  | succ depth ih =>
    induction roots generalizing progress with
    | nil => exact Explores.refl progress
    | cons root rest restIh =>
      have single : Explores next [root] progress (visit next (depth + 1) progress root) := by
        unfold visit
        split
        · rename_i entered
          exact Explores.of_entered entered
        · rename_i fresh
          refine Explores.enter fresh ?_
          by_cases final : next root = []
          · rw [final]
            exact Explores.refl _
          · have fewer := Progress.unentered_enter_lt (whole root final) fresh
            exact ih (progress.enter root) (next root) (by omega)
      have later := restIh (visit next (depth + 1) progress root)
        (Nat.lt_of_le_of_lt (Progress.unentered_le vertices single.kept) enough)
      exact single.trans later

/-- A search that may go deep enough does not go deeper. -/
theorem visitAll_succ (whole : ∀ vertex, next vertex ≠ [] → vertex ∈ vertices) (depth : Nat)
    (progress : Progress α) (roots : List α) (enough : progress.unentered vertices < depth) :
    visitAll next (depth + 1) progress roots = visitAll next depth progress roots := by
  -- as for `explores_visitAll`, from a root to what follows it and from root to root
  induction depth generalizing progress roots with
  | zero => exact absurd enough (Nat.not_lt_zero _)
  | succ depth ih =>
    induction roots generalizing progress with
    | nil => rfl
    | cons root rest restIh =>
      have single : visit next (depth + 2) progress root = visit next (depth + 1) progress root := by
        unfold visit
        split
        · rfl
        · rename_i fresh
          refine congrArg (Progress.finish · root) ?_
          by_cases final : next root = []
          · rw [final]
            rfl
          · have fewer := Progress.unentered_enter_lt (whole root final) fresh
            exact ih (progress.enter root) (next root) (by omega)
      have explored := explores_visitAll whole (depth + 1) progress [root] enough
      have later := restIh (visit next (depth + 1) progress root)
        (Nat.lt_of_le_of_lt (Progress.unentered_le vertices explored.kept) enough)
      show visitAll next (depth + 2) (visit next (depth + 2) progress root) rest = _
      rw [single]
      exact later

/-- What an entered vertex reaches is entered, if this holds of what had been entered before. -/
theorem Explores.hasEntered_of_reaches {roots : List α} {before after : Progress α}
    (explored : Explores next roots before after)
    (closedBefore : ∀ vertex, before.hasEntered vertex = true →
      ∀ follower ∈ next vertex, after.hasEntered follower = true)
    {root vertex : α} (entered : after.hasEntered root = true) (path : Reaches next root vertex) :
    after.hasEntered vertex = true := by
  induction path with
  | refl => exact entered
  | @tail between last _ follows ih =>
    by_cases early : before.hasEntered between = true
    · exact closedBefore between early last follows
    · exact explored.closed between ih early last follows

/-- A search that starts afresh and may go deep enough enters exactly what its roots reach. -/
theorem hasEntered_visitAll_iff (whole : ∀ vertex, next vertex ≠ [] → vertex ∈ vertices)
    {depth : Nat} (enough : vertices.length < depth) (roots : List α) (vertex : α) :
    (visitAll next depth {} roots).hasEntered vertex = true
      ↔ ∃ root ∈ roots, Reaches next root vertex := by
  have explored := explores_visitAll whole depth {} roots
    (Nat.lt_of_le_of_lt List.countP_le_length enough)
  constructor
  · intro entered
    exact explored.reached vertex entered (by simp)
  · rintro ⟨root, member, path⟩
    exact explored.hasEntered_of_reaches (by simp) (explored.covered root member) path

/-- A search that starts afresh finishes its first root right after everything that this reaches. -/
theorem exists_finished_cons (whole : ∀ vertex, next vertex ≠ [] → vertex ∈ vertices)
    {depth : Nat} (enough : vertices.length < depth) (first : α) (rest : List α) :
    ∃ late early, (visitAll next depth {} (first :: rest)).finished = late ++ first :: early
      ∧ ∀ vertex, Reaches next first vertex → vertex ≠ first → vertex ∈ early := by
  have inDepth (progress : Progress α) : progress.unentered vertices < depth :=
    Nat.lt_of_le_of_lt List.countP_le_length enough
  obtain ⟨late, isLate, -⟩ := (explores_visitAll whole depth (visitAll next depth {} [first]) rest
    (inDepth _)).finished
  obtain ⟨found, isFound, adds, -⟩ := (explores_visitAll whole depth {} [first] (inDepth _)).finished
  obtain ⟨early, isEarly⟩ : ∃ early, (visitAll next depth {} [first]).finished = first :: early := by
    cases depth with
    | zero => exact absurd enough (Nat.not_lt_zero _)
    | succ depth =>
      refine ⟨((next first).foldl (visit next depth) (Progress.enter {} first)).finished, ?_⟩
      simp [visitAll, visit, Progress.finish]
  refine ⟨late, early, ?_, fun vertex path differ => ?_⟩
  · rw [← isEarly]
    exact isLate
  · have entered := (hasEntered_visitAll_iff whole enough [first] vertex).mpr
      ⟨first, List.mem_singleton_self first, path⟩
    have listed : vertex ∈ (visitAll next depth {} [first]).finished := by
      rw [isFound]
      exact List.mem_append_left _ ((adds.mem_iff vertex).mpr ⟨entered, by simp⟩)
    rw [isEarly] at listed
    exact (List.mem_cons.mp listed).resolve_left differ

/-- The discovery that may go deep enough lists exactly what the roots reach. -/
theorem mem_discovery_iff (whole : ∀ vertex, next vertex ≠ [] → vertex ∈ vertices)
    {depth : Nat} (enough : vertices.length < depth) (roots : List α) (vertex : α) :
    vertex ∈ discovery next depth roots ↔ ∃ root ∈ roots, Reaches next root vertex := by
  rw [← hasEntered_visitAll_iff whole enough]
  obtain ⟨found, record, adds⟩ := (explores_visitAll whole depth {} roots
    (Nat.lt_of_le_of_lt List.countP_le_length enough)).recorded
  have afresh : found ++ ({} : Progress α).discovered = found := List.append_nil found
  simp [discovery, record, afresh, adds.mem_iff]

/-- A search that starts afresh and may go deep enough finishes what it enters, each vertex after
what follows it. -/
theorem postordered_visitAll (whole : ∀ vertex, next vertex ≠ [] → vertex ∈ vertices)
    {depth : Nat} (enough : vertices.length < depth) (roots : List α) :
    let found := (visitAll next depth {} roots).finished
    found.Nodup ∧ (∀ vertex, vertex ∈ found ↔ ∃ root ∈ roots, Reaches next root vertex)
      ∧ Postordered next (fun _ => False) found := by
  obtain ⟨found, record, adds, ordered⟩ := (explores_visitAll whole depth {} roots
    (Nat.lt_of_le_of_lt List.countP_le_length enough)).finished
  have afresh : found ++ ({} : Progress α).finished = found := List.append_nil found
  rw [afresh] at record
  refine ⟨record ▸ adds.once, fun vertex => ?_, ?_⟩
  · rw [record, adds.mem_iff, ← hasEntered_visitAll_iff whole enough]
    simp
  · simpa only [record, Progress.hasEntered_empty, Bool.false_eq_true] using ordered

/-! ### Searches that go alike -/

/-- Two searches find the same, each on top of what it had found before. -/
structure GoesAlike (before other after otherAfter : Progress α) : Prop where
  entered : ∀ vertex, after.hasEntered vertex = otherAfter.hasEntered vertex
  recorded : ∃ found, after.discovered = found ++ before.discovered
    ∧ otherAfter.discovered = found ++ other.discovered

theorem GoesAlike.trans {before other between otherBetween after otherAfter : Progress α}
    (first : GoesAlike before other between otherBetween)
    (second : GoesAlike between otherBetween after otherAfter) :
    GoesAlike before other after otherAfter := by
  obtain ⟨early, isEarly, otherEarly⟩ := first.recorded
  obtain ⟨late, isLate, otherLate⟩ := second.recorded
  refine ⟨second.entered, late ++ early, ?_, ?_⟩
  · rw [isLate, isEarly, List.append_assoc]
  · rw [otherLate, otherEarly, List.append_assoc]

/-- **What a search finds depends only on what has been entered before.** -/
theorem goesAlike_visitAll (depth : Nat) {before other : Progress α}
    (same : ∀ vertex, before.hasEntered vertex = other.hasEntered vertex) (roots : List α) :
    GoesAlike before other (visitAll next depth before roots) (visitAll next depth other roots) := by
  induction depth generalizing before other roots with
  | zero =>
    have stays (progress : Progress α) : visitAll next 0 progress roots = progress := by
      induction roots with
      | nil => rfl
      | cons _ _ ih => exact ih
    rw [stays, stays]
    exact ⟨same, [], rfl, rfl⟩
  | succ depth ih =>
    induction roots generalizing before other with
    | nil => exact ⟨same, [], rfl, rfl⟩
    | cons root rest restIh =>
      have single : GoesAlike before other (visit next (depth + 1) before root)
          (visit next (depth + 1) other root) := by
        unfold visit
        rw [same root]
        split
        · exact ⟨same, [], rfl, rfl⟩
        · have sameThen (vertex : α) :
              (before.enter root).hasEntered vertex = (other.enter root).hasEntered vertex := by
            rw [Bool.eq_iff_iff, Progress.hasEntered_enter_iff, Progress.hasEntered_enter_iff, same]
          have inner := ih sameThen (next root)
          obtain ⟨found, isFound, otherFound⟩ := inner.recorded
          refine ⟨inner.entered, found ++ [root], isFound.trans ?_, otherFound.trans ?_⟩
          · rw [List.append_assoc]
            rfl
          · rw [List.append_assoc]
            rfl
      exact single.trans (restIh single.entered)

end Search

end WitGraph
