import MonkeyTokens.Cursor
import MonkeyTokens.Utf8.Offset

/-!
# Cursors within a text

A cursor lies within a text if it has the right offset and the right line for what
is left to read.  A cursor never leaves its text by passing over what is ahead of it,
and the questions about its offset are answered by what is left to read.

Main results:

- Theorem `Cursor.Within.pass`: passing over what is ahead does not leave the text.
- Theorem `Cursor.Within.slice?_offset`: slices that begin at a cursor are read off
  what is left.
-/

namespace MonkeyTokens

namespace Cursor

/-- A cursor lies within a text if what was read before it accounts for its offset
and its line. -/
def Within (c : Cursor) (source : String) : Prop :=
  ∃ before, source.toList = before ++ c.rest ∧ c.offset = Utf8.width before ∧
    c.line = 1 + before.count '\n'

/-- The cursor at the start of a text lies within it. -/
theorem within_atStart (source : String) : (atStart source).Within source :=
  ⟨[], rfl, rfl, rfl⟩

namespace Within

variable {c : Cursor} {source : String}

/-- A cursor does not leave its text by passing over what is ahead. -/
theorem pass {text rest : List Char} (h : c.Within source) (hrest : c.rest = text ++ rest) :
    (c.pass text rest).Within source := by
  rcases h with ⟨before, hsource, hoffset, hline⟩
  refine ⟨before ++ text, ?_, ?_, ?_⟩
  · rw [hsource, hrest]
    exact (List.append_assoc before text rest).symm
  · simp [Cursor.pass, hoffset]
  · simp [Cursor.pass, hline, Nat.add_assoc]

/-- The offset of a cursor and what is left to read make up the length of the text. -/
theorem offset_add_width (h : c.Within source) :
    c.offset + Utf8.width c.rest = Utf8.width source.toList := by
  rcases h with ⟨before, hsource, hoffset, -⟩
  rw [hsource, hoffset, Utf8.width_append]

/-- The line of a cursor is the one on which its offset lies. -/
theorem lineAt?_offset (h : c.Within source) : Utf8.lineAt? source c.offset = some c.line := by
  rcases h with ⟨before, hsource, hoffset, hline⟩
  rw [Utf8.lineAt?, hsource, hoffset, Utf8.splitAt?_width, hline]
  rfl

/-- The character at the offset of a cursor is the first that is left to read. -/
theorem charAt?_offset (h : c.Within source) :
    Utf8.charAt? source c.offset = c.rest.head? := by
  rcases h with ⟨before, hsource, hoffset, -⟩
  rw [Utf8.charAt?, hsource, hoffset, Utf8.splitAt?_width]
  rfl

/-- A slice that begins at a cursor is what is left to read up to its end. -/
theorem slice?_offset {stop : Nat} {text : String} (h : c.Within source) :
    Utf8.slice? source c.offset stop = some text ↔
      ∃ rest, c.rest = text.toList ++ rest ∧ c.offset + Utf8.width text.toList = stop := by
  rcases h with ⟨before, hsource, hoffset, -⟩
  rw [Utf8.slice?_eq_some_iff]
  constructor
  · intro h
    rcases h with ⟨before', after, hsource', hstart, hstop⟩
    rw [hsource, List.append_assoc] at hsource'
    have hinj := Utf8.append_inj_of_width_eq hsource' (hoffset.symm.trans hstart.symm)
    exact ⟨after, hinj.2, hstop⟩
  · intro h
    rcases h with ⟨rest, hrest, hstop⟩
    refine ⟨before, rest, ?_, hoffset.symm, hstop⟩
    rw [hsource, hrest, List.append_assoc]

end Within

end Cursor

end MonkeyTokens
