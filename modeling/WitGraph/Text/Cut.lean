/-
**Cutting text at a separator.**

Identifiers, versions and file paths are all read by cutting a list of characters at one separator
character:

* `cutFirst` cuts at the first occurrence, `cutLast` at the last one, and both drop the separator;
* `segments` cuts at every occurrence, so it always yields at least one (possibly empty) piece;
* `cutFirst_append` and `cutLast_append` say that a cut undoes gluing two pieces together with the
  separator, provided the piece on the side of the cut does not contain it.
-/

namespace WitGraph.Text

/-- The text before the first `separator`, and the text after it if there is one. -/
def cutFirst (separator : Char) (text : List Char) : List Char × Option (List Char) :=
  match text.dropWhile (· != separator) with
  | [] => (text, none)
  | _ :: rest => (text.takeWhile (· != separator), some rest)

/-- The text before the last `separator`, and the text after it if there is one. -/
def cutLast (separator : Char) (text : List Char) : List Char × Option (List Char) :=
  match cutFirst separator text.reverse with
  | (_, none) => (text, none)
  | (after, some before) => (before.reverse, some after.reverse)

/-- All the pieces between occurrences of `separator`, in order. -/
def segments (separator : Char) (text : List Char) : List (List Char) :=
  text.foldr (fun char pieces =>
    if char = separator then [] :: pieces
    else match pieces with
      | [] => [[char]]
      | piece :: rest => (char :: piece) :: rest) [[]]

/-- Text without the separator is not cut. -/
theorem cutFirst_of_not_mem {separator : Char} {text : List Char} (absent : separator ∉ text) :
    cutFirst separator text = (text, none) := by
  have all : ∀ char ∈ text, (char != separator) = true := by
    simp only [bne_iff_ne]
    exact fun char member equal => absent (equal ▸ member)
  have dropped : text.dropWhile (· != separator) = [] := by
    have whole : (text ++ []).dropWhile (· != separator) = [].dropWhile (· != separator) :=
      List.dropWhile_append_of_pos all
    simpa using whole
  simp [cutFirst, dropped]

/-- Cutting undoes gluing when the first piece does not contain the separator. -/
theorem cutFirst_append {separator : Char} {before : List Char} (after : List Char)
    (absent : separator ∉ before) :
    cutFirst separator (before ++ separator :: after) = (before, some after) := by
  have all : ∀ char ∈ before, (char != separator) = true := by
    simp only [bne_iff_ne]
    exact fun char member equal => absent (equal ▸ member)
  simp [cutFirst, List.dropWhile_append_of_pos all, List.takeWhile_append_of_pos all]

/-- Text without the separator is not cut from the end either. -/
theorem cutLast_of_not_mem {separator : Char} {text : List Char} (absent : separator ∉ text) :
    cutLast separator text = (text, none) := by
  have reversed : separator ∉ text.reverse := by simpa using absent
  simp [cutLast, cutFirst_of_not_mem reversed]

/-- Cutting from the end undoes gluing when the last piece does not contain the separator. -/
theorem cutLast_append {separator : Char} (before : List Char) {after : List Char}
    (absent : separator ∉ after) :
    cutLast separator (before ++ separator :: after) = (before, some after) := by
  have glued : (before ++ separator :: after).reverse
      = after.reverse ++ separator :: before.reverse := by simp
  have reversed : separator ∉ after.reverse := by simpa using absent
  simp [cutLast, glued, cutFirst_append before.reverse reversed]

end WitGraph.Text
