import MonkeyTokens.Location

/-!
# The order of locations

Locations are ordered by line, and on one line by column.  Each character moves the
location on, whether or not it ends a line, so later characters of a text have later
locations, up to the end of the text.  No two of them share a location.

Main results:

- Theorem `Location.lt_step`: a character moves the location on.
- Theorem `Location.of_lt_of`: later characters have later locations.
- Theorem `Location.of_inj`: within a text, a location belongs to one offset.
-/

namespace MonkeyTokens.Location

/-- On an earlier line, or further left on the same line. -/
instance : LT Location where
  lt l m := l.line < m.line ∨ (l.line = m.line ∧ l.column < m.column)

variable {l m n : Location}

theorem lt_def : l < m ↔ l.line < m.line ∨ (l.line = m.line ∧ l.column < m.column) :=
  Iff.rfl

protected theorem lt_irrefl (l : Location) : ¬ l < l := by
  rw [lt_def]
  omega

protected theorem lt_trans (hlm : l < m) (hmn : m < n) : l < n := by
  rw [lt_def] at *
  omega

/-- A character moves the location on, to the next line or to the next column. -/
theorem lt_step (l : Location) (c : Char) (after : List Char) : l < l.step c after := by
  unfold step
  split
  · exact Or.inl (Nat.lt_succ_self l.line)
  · exact Or.inr ⟨rfl, Nat.lt_succ_self l.column⟩

variable {text : List Char} {i j : Nat}

/-- Every character comes before the next, or before the end of the text. -/
theorem of_lt_of_succ (hi : i < text.length) : of text i < of text (i + 1) := by
  have hsplit : text.take i ++ text[i] :: text.drop (i + 1) = text := by
    rw [List.getElem_cons_drop, List.take_append_drop]
  have hlength : (text.take i).length = i := by
    rw [List.length_take, Nat.min_eq_left (Nat.le_of_lt hi)]
  have hsucc := of_succ (text.take i) text[i] (text.drop (i + 1))
  rw [hsplit, hlength] at hsucc
  rw [hsucc]
  exact lt_step ..

/-- Later characters have later locations, and the end of the text has the last. -/
theorem of_lt_of (hij : i < j) (hj : j ≤ text.length) : of text i < of text j := by
  induction hij with
  | refl => exact of_lt_of_succ hj
  | step _ ih => exact Location.lt_trans (ih (Nat.le_of_succ_le hj)) (of_lt_of_succ hj)

/-- Within a text, a location belongs to one offset. -/
theorem of_inj (hi : i ≤ text.length) (hj : j ≤ text.length) :
    of text i = of text j ↔ i = j := by
  constructor
  · intro h
    rcases Nat.lt_trichotomy i j with hlt | heq | hgt
    · exact absurd (h ▸ of_lt_of hlt hj) (Location.lt_irrefl _)
    · exact heq
    · exact absurd (h ▸ of_lt_of hgt hi) (Location.lt_irrefl _)
  · exact congrArg (of text)

end MonkeyTokens.Location
