/-
**Cutting undoes joining, and joining undoes cutting.**

* `segments_intercalate`: pieces that do not contain the separator are found again after they have
  been joined with it;
* `intercalate_segments`: pieces that have been cut apart join to the text again;
* `cutFirst_eq_iff`, `cutLast_eq_iff`: a cut at the first or last mark finds the only two pieces that
  the mark separates there, whether something stands behind a mark or not.
-/

import WitGraph.Text.Cut

namespace WitGraph.Text

theorem segments_of_not_mem {separator : Char} {piece : List Char} (absent : separator ∉ piece) :
    segments separator piece = [piece] := by
  induction piece with
  | nil => rfl
  | cons char rest ih =>
    rw [List.mem_cons, not_or] at absent
    obtain ⟨differ, absentRest⟩ := absent
    have others : segments separator rest = [rest] := ih absentRest
    unfold segments at others ⊢
    rw [List.foldr_cons, others, if_neg (Ne.symm differ)]

/-- The piece before the first separator is the first piece. -/
theorem segments_append {separator : Char} {piece : List Char} (absent : separator ∉ piece)
    (rest : List Char) :
    segments separator (piece ++ separator :: rest) = piece :: segments separator rest := by
  induction piece with
  | nil => simp [segments]
  | cons char others ih =>
    rw [List.mem_cons, not_or] at absent
    obtain ⟨differ, absentRest⟩ := absent
    have tail := ih absentRest
    unfold segments at tail ⊢
    rw [List.cons_append, List.foldr_cons, tail, if_neg (Ne.symm differ)]

/-- Pieces without the separator are found again after they have been joined with it. -/
theorem segments_intercalate {separator : Char} {pieces : List (List Char)} (nonempty : pieces ≠ [])
    (absent : ∀ piece ∈ pieces, separator ∉ piece) :
    segments separator ([separator].intercalate pieces) = pieces := by
  induction pieces with
  | nil => exact absurd rfl nonempty
  | cons piece rest ih =>
    have apart := absent piece (List.mem_cons_self ..)
    cases rest with
    | nil => rw [List.intercalate_singleton, segments_of_not_mem apart]
    | cons second others =>
      rw [List.intercalate_cons_cons, List.append_assoc, List.singleton_append,
        segments_append apart, ih (by simp) fun other member =>
          absent other (List.mem_cons_of_mem _ member)]

theorem segments_ne_nil (separator : Char) (text : List Char) : segments separator text ≠ [] := by
  cases text with
  | nil => simp [segments]
  | cons char rest =>
    unfold segments
    rw [List.foldr_cons]
    split
    · simp
    · split <;> simp

theorem segments_cons_self (separator : Char) (rest : List Char) :
    segments separator (separator :: rest) = [] :: segments separator rest :=
  segments_append List.not_mem_nil rest

/-- Any other character goes to the first piece of the rest. -/
theorem exists_segments_cons {separator char : Char} (differ : char ≠ separator) (rest : List Char) :
    ∃ piece others, segments separator rest = piece :: others
      ∧ segments separator (char :: rest) = (char :: piece) :: others := by
  obtain ⟨piece, others, split⟩ := List.exists_cons_of_ne_nil (segments_ne_nil separator rest)
  refine ⟨piece, others, split, ?_⟩
  unfold segments at split ⊢
  rw [List.foldr_cons, split, if_neg differ]

/-- Joining undoes cutting. -/
theorem intercalate_segments (separator : Char) (text : List Char) :
    [separator].intercalate (segments separator text) = text := by
  induction text with
  | nil => rfl
  | cons char rest ih =>
    by_cases same : char = separator
    · subst same
      obtain ⟨piece, others, split⟩ := List.exists_cons_of_ne_nil (segments_ne_nil char rest)
      rw [segments_cons_self, split, List.intercalate_cons_cons, ← split, ih]
      rfl
    · obtain ⟨piece, others, ofRest, ofAll⟩ := exists_segments_cons same rest
      rw [ofRest] at ih
      rw [ofAll, ← ih]
      cases others with
      | nil => simp only [List.intercalate_singleton]
      | cons second rest => simp only [List.intercalate_cons_cons, List.cons_append]

theorem mem_intercalate {separator char : Char} {pieces : List (List Char)}
    (member : char ∈ [separator].intercalate pieces) :
    char = separator ∨ ∃ piece ∈ pieces, char ∈ piece := by
  induction pieces with
  | nil => cases member
  | cons piece rest ih =>
    cases rest with
    | nil =>
      rw [List.intercalate_singleton] at member
      exact Or.inr ⟨piece, List.mem_cons_self .., member⟩
    | cons second others =>
      rw [List.intercalate_cons_cons, List.mem_append, List.mem_append,
        List.mem_singleton] at member
      rcases member with (inFirst | isSeparator) | inRest
      · exact Or.inr ⟨piece, List.mem_cons_self .., inFirst⟩
      · exact Or.inl isSeparator
      · refine (ih inRest).imp_right ?_
        rintro ⟨other, inside, member⟩
        exact ⟨other, List.mem_cons_of_mem _ inside, member⟩

/-- What stands behind a mark, if there is anything. -/
def marked (mark : Char) : Option (List Char) → List Char
  | none => []
  | some text => mark :: text

/-- A first piece without the mark is found again, whatever stands behind the mark. -/
theorem cutFirst_marked {mark : Char} {before : List Char} (absent : mark ∉ before)
    (after : Option (List Char)) : cutFirst mark (before ++ marked mark after) = (before, after) := by
  cases after with
  | none => rw [marked, List.append_nil, cutFirst_of_not_mem absent]
  | some text => exact cutFirst_append text absent

/-- A last piece without the mark is found again, whether something stands before the mark or not. -/
theorem cutLast_marked {mark : Char} {before : List Char} {after : Option (List Char)}
    (absent : mark ∉ after.getD before) :
    cutLast mark (before ++ marked mark after) = (before, after) := by
  cases after with
  | none =>
    rw [Option.getD_none] at absent
    rw [marked, List.append_nil, cutLast_of_not_mem absent]
  | some text => exact cutLast_append before absent

/-- What stands before the first mark, and what stands behind it. -/
theorem cutFirst_eq_iff {mark : Char} {text before : List Char} {after : Option (List Char)} :
    cutFirst mark text = (before, after) ↔ text = before ++ marked mark after ∧ mark ∉ before := by
  constructor
  · intro cut
    by_cases present : mark ∈ text
    · obtain ⟨first, rest, rfl, absent⟩ := List.eq_append_cons_of_mem present
      cases (cutFirst_append rest absent).symm.trans cut
      exact ⟨rfl, absent⟩
    · cases (cutFirst_of_not_mem present).symm.trans cut
      exact ⟨(List.append_nil text).symm, present⟩
  · rintro ⟨rfl, absent⟩
    exact cutFirst_marked absent after

/-- What stands before the last mark, and what stands behind it. -/
theorem cutLast_eq_iff {mark : Char} {text before : List Char} {after : Option (List Char)} :
    cutLast mark text = (before, after)
      ↔ text = before ++ marked mark after ∧ mark ∉ after.getD before := by
  constructor
  · intro cut
    by_cases present : mark ∈ text
    · obtain ⟨last, others, reversed, absent⟩ :=
        List.eq_append_cons_of_mem (List.mem_reverse.mpr present)
      have absentLast : mark ∉ last.reverse := by simpa using absent
      have glued : text = others.reverse ++ mark :: last.reverse := by
        rw [← List.reverse_reverse text, reversed]
        simp
      rw [glued] at cut ⊢
      cases (cutLast_append others.reverse absentLast).symm.trans cut
      exact ⟨rfl, absentLast⟩
    · cases (cutLast_of_not_mem present).symm.trans cut
      exact ⟨(List.append_nil text).symm, present⟩
  · rintro ⟨rfl, absent⟩
    exact cutLast_marked absent

theorem mem_marked {mark char : Char} {text : Option (List Char)}
    (member : char ∈ marked mark text) :
    char = mark ∨ ∃ written, text = some written ∧ char ∈ written := by
  cases text with
  | none => cases member
  | some written => exact (List.mem_cons.mp member).imp_right fun inside => ⟨written, rfl, inside⟩

end WitGraph.Text
