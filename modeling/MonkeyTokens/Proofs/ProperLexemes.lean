import MonkeyTokens.Listing
import MonkeyTokens.Proofs.Concatenation
import MonkeyTokens.Proofs.Tokenization

/-!
# Proper lexemes

The proper lexemes of a text are all but its end.  They are those that are listed.  The
proper lexemes of two texts that do not glue are put end to end; blanks before or behind
a text add none and glue with nothing.

Main results:

- Theorem `listed_lexemes`: the proper lexemes of a text are those that are listed.
- Theorem `line_le_of_mem_properLexemes`: proper lexemes lie on the lines of the text.
- Theorem `properLexemes_append`: the proper lexemes of two texts that do not glue.
- Theorems `properLexemes_append_gap` and `properLexemes_gap_append`: blanks behind a
  text make no difference, and blanks before it only move its lexemes.
-/

namespace MonkeyTokens

/-- The lexemes of a text without its end. -/
def properLexemes (source : String) : List Lexeme :=
  (lexemes source).filter fun l => !l.isEof

variable {source a b : String} {l : Lexeme}

theorem properLexemes_eq_dropLast (source : String) :
    properLexemes source = (lexemes source).dropLast :=
  ((reading_lexemes (.atStart source)).dropLast_eq_filter).symm

/-- The lexemes of a text are the proper ones and the end. -/
theorem lexemes_eq_append (source : String) :
    lexemes source = properLexemes source ++ [(Cursor.atStart source).finish.endLexeme] := by
  rw [properLexemes_eq_dropLast]
  exact (reading_lexemes (.atStart source)).eq_dropLast_append

theorem isEof_of_mem_properLexemes (hl : l ∈ properLexemes source) : l.isEof = false := by
  simpa using (List.mem_filter.mp hl).2

/-- The proper lexemes of a text are those that are listed. -/
theorem listed_lexemes (source : String) : listed (lexemes source) = properLexemes source := by
  rw [lexemes_eq_append, listed_append fun l hl => isEof_of_mem_properLexemes hl]
  simp [listed, Cursor.isEof_endLexeme]

/-- Without spans, the entries of a text are those of the tokens of its proper lexemes. -/
theorem entries_lexemes_false (source : String) :
    entries false (lexemes source) =
      ((properLexemes source).map Lexeme.token).map fun t => t.render ++ "\n" := by
  rw [entries, listed_lexemes, List.map_map]
  rfl

/-- The tokens of a text are those of its proper lexemes and the end. -/
theorem tokenize_eq (source : String) :
    tokenize source = (properLexemes source).map Lexeme.token ++ [.endOfText] := by
  rw [tokenize, lexemes_eq_append, List.map_append]
  rfl

/-- A proper lexeme is placed in its text. -/
theorem placed_of_mem_properLexemes (hl : l ∈ properLexemes source) : Placed source l :=
  placed_of_mem_lexemes (List.mem_filter.mp hl).1 (isEof_of_mem_properLexemes hl)

/-! ## Lines -/

/-- Every offset of a text lies on one of its lines. -/
theorem lineAt?_bounds {offset line : Nat} (h : Utf8.lineAt? source offset = some line) :
    1 ≤ line ∧ line ≤ 1 + source.toList.count '\n' := by
  rcases Option.map_eq_some_iff.mp h with ⟨⟨before, after⟩, hsplit, rfl⟩
  rw [(Utf8.splitAt?_eq_some_iff.mp hsplit).1, List.count_append]
  dsimp only
  omega

/-- Proper lexemes lie on the lines of the text. -/
theorem line_le_of_mem_properLexemes (hl : l ∈ properLexemes source) :
    1 ≤ l.span.line ∧ l.span.line ≤ 1 + source.toList.count '\n' := by
  exact lineAt?_bounds ((isTokenization_lexemes source).line l (List.mem_filter.mp hl).1)

/-- The proper lexemes of a text without line feeds lie on its first line. -/
theorem line_eq_one_of_mem_properLexemes (hline : '\n' ∉ source.toList)
    (hl : l ∈ properLexemes source) : l.span.line = 1 := by
  have hbounds := line_le_of_mem_properLexemes hl
  rw [List.count_eq_zero.mpr hline] at hbounds
  omega

/-! ## Texts put together -/

/-- The lexemes of two texts that do not glue are the proper ones of the first and those of
the second, moved behind it. -/
theorem lexemes_append (h : ¬ Glues a b) :
    lexemes (a ++ b) = properLexemes a ++
      (lexemes b).map (Lexeme.shift (Utf8.width a.toList) (a.toList.count '\n')) := by
  have hread : Reading (.atStart a) (lexemes a) := reading_lexemes _
  have hrest : (Cursor.atStart a).rest = a.toList := rfl
  rw [lexemes_append_eq_extend, hread.append (mt glues_iff_gluesAt_finish.mpr h), hrest,
    lexemes_pass_atStart, properLexemes_eq_dropLast]

/-- The proper lexemes of two texts that do not glue are those of the first and those of
the second, moved behind it. -/
theorem properLexemes_append (h : ¬ Glues a b) :
    properLexemes (a ++ b) = properLexemes a ++
      (properLexemes b).map (Lexeme.shift (Utf8.width a.toList) (a.toList.count '\n')) := by
  have hproper : (properLexemes a).filter (fun l => !l.isEof) = properLexemes a := by
    rw [properLexemes, List.filter_filter]
    simp
  rw [properLexemes, lexemes_append h, List.filter_append, hproper, List.filter_map]
  rfl

/-! ## Blanks -/

/-- Nothing glues with a blank behind it. -/
theorem not_glues_of_head? (hb : ∀ c ∈ b.toList.head?, c ∈ blankChars) : ¬ Glues a b := by
  intro h
  rcases h with ⟨x, y, -, hy, hxy⟩ | ⟨hequals, -⟩
  · have hy' := hb y hy
    rcases hxy with ⟨-, hletter⟩ | ⟨-, hdigit⟩
    · exact Kind.not_extends_of_mem_blankChars (k := .ident) hy' hletter
    · exact Kind.not_extends_of_mem_blankChars (k := .int) hy' hdigit
  · exact absurd (hb '=' hequals) (by decide)

/-- Blanks have no proper lexemes. -/
theorem properLexemes_of_isGap (h : IsGap a.toList) : properLexemes a = [] := by
  have hgap : IsGap (Cursor.atStart a).rest := h
  rw [properLexemes_eq_dropLast, lexemes, Cursor.lexemes_of_isGap hgap]
  rfl

/-- Blanks glue with nothing behind them. -/
theorem not_glues_of_isGap (h : IsGap a.toList) : ¬ Glues a b := by
  apply not_glues_of_blank
  · intro x hx
    exact h x (List.mem_of_getLast? hx)
  · rw [← properLexemes_eq_dropLast, properLexemes_of_isGap h]
    rintro l ⟨⟩

/-- Blanks behind a text make no difference to its proper lexemes. -/
theorem properLexemes_append_gap (h : IsGap b.toList) :
    properLexemes (a ++ b) = properLexemes a := by
  have hglue : ¬ Glues a b := not_glues_of_head? fun c hc => h c (List.mem_of_mem_head? hc)
  rw [properLexemes_append hglue, properLexemes_of_isGap h, List.map_nil, List.append_nil]

/-- Blanks before a text only move its proper lexemes. -/
theorem properLexemes_gap_append (h : IsGap a.toList) :
    properLexemes (a ++ b) =
      (properLexemes b).map (Lexeme.shift (Utf8.width a.toList) (a.toList.count '\n')) := by
  rw [properLexemes_append (not_glues_of_isGap h), properLexemes_of_isGap h, List.nil_append]

end MonkeyTokens
