import MonkeyTokens.Proofs.ProperLexemes

/-!
# Seams

Where two texts meet, either a lexeme of the whole reaches across the seam, or the whole is
scanned like the two parts.  Texts glue exactly in the first case, and then the tokens of the
parts are not those of the whole.  Blanks let no lexeme across.  So blanks can be put into a
text without any effect on its tokens, but only where they cut no lexeme.

Main results:

- Theorem `exists_crosses_iff_glues`: a lexeme reaches across the seam of texts that glue.
- Theorem `tokenize_append_eq_iff`: the tokens of two texts put together.
- Theorem `tokenize_insert_blanks_iff`: blanks inside a lexeme, and no other blanks, change
  the tokens of a text.
-/

namespace MonkeyTokens

/-- A lexeme begins before an offset and goes on behind it. -/
def Lexeme.Crosses (l : Lexeme) (offset : Nat) : Prop :=
  l.span.start < offset ∧ offset < l.span.stop

variable {source a b : String} {l : Lexeme}

/-! ## Lexemes across a seam -/

/-- No proper lexeme goes on behind the end of its text. -/
theorem stop_le_of_mem_properLexemes (hl : l ∈ properLexemes source) :
    l.span.stop ≤ Utf8.width source.toList := by
  rcases Utf8.slice?_eq_some_iff.mp (placed_of_mem_properLexemes hl).literal_eq with
    ⟨before, after, hsource, hstart, hstop⟩
  rw [hsource, Utf8.width_append, Utf8.width_append]
  omega

/-- Texts that do not glue have no lexeme across the seam. -/
theorem not_crosses_of_not_glues (h : ¬ Glues a b) :
    ∀ l ∈ lexemes (a ++ b), ¬ l.Crosses (Utf8.width a.toList) := by
  rw [lexemes_append h]
  intro l hl hcross
  rcases List.mem_append.mp hl with hfirst | hsecond
  · have hstop := stop_le_of_mem_properLexemes hfirst
    exact absurd hcross.2 (Nat.not_lt.mpr hstop)
  · rcases List.mem_map.mp hsecond with ⟨l', -, rfl⟩
    exact absurd hcross.1 (Nat.not_lt.mpr (Nat.le_add_left _ _))

/-- Texts that glue have a lexeme across the seam. -/
theorem exists_crosses_of_glues (h : Glues a b) :
    ∃ l ∈ lexemes (a ++ b), l.Crosses (Utf8.width a.toList) := by
  have hread : Reading (.atStart a) (lexemes a) := reading_lexemes _
  rcases hread.append_glued_eq (glues_iff_gluesAt_finish.mp h) with
    ⟨last, longer, later, -, hlexemes, hstart, hstop, -⟩
  rw [offset_finish_atStart] at hstart hstop
  refine ⟨longer, ?_, hstart, hstop⟩
  rw [lexemes_append_eq_extend, hlexemes]
  exact List.mem_append_right _ List.mem_cons_self

/-- A lexeme reaches across the seam of two texts exactly if they glue. -/
theorem exists_crosses_iff_glues :
    (∃ l ∈ lexemes (a ++ b), l.Crosses (Utf8.width a.toList)) ↔ Glues a b := by
  constructor
  · intro h
    rcases h with ⟨l, hl, hcross⟩
    by_cases hglue : Glues a b
    · exact hglue
    · exact absurd hcross (not_crosses_of_not_glues hglue l hl)
  · exact exists_crosses_of_glues

/-! ## Tokens of two texts -/

theorem dropLast_tokenize (source : String) :
    (tokenize source).dropLast = (properLexemes source).map Lexeme.token := by
  rw [tokenize_eq, List.dropLast_concat]

/-- The tokens of two texts that do not glue are put end to end. -/
theorem tokenize_append (h : ¬ Glues a b) :
    tokenize (a ++ b) = (tokenize a).dropLast ++ tokenize b := by
  have hshift (bytes lines : Nat) : Lexeme.token ∘ Lexeme.shift bytes lines = Lexeme.token := rfl
  rw [tokenize, lexemes_append h, List.map_append, List.map_map, hshift, dropLast_tokenize]
  rfl

/-- The tokens of two texts put together are those of the first, but for its end, and those
of the second, exactly if the texts do not glue. -/
theorem tokenize_append_eq_iff :
    tokenize (a ++ b) = (tokenize a).dropLast ++ tokenize b ↔ ¬ Glues a b := by
  constructor
  · intro h hglue
    have hread : Reading (.atStart a) (lexemes a) := reading_lexemes _
    apply hread.not_tokens_prefix_of_glued (glues_iff_gluesAt_finish.mp hglue)
    rw [← lexemes_append_eq_extend, List.map_dropLast]
    exact ⟨tokenize b, h.symm⟩
  · exact tokenize_append

/-! ## Blanks at a seam -/

variable {blanks : String}

/-- Blanks keep two texts apart: the tokens are those of the one and those of the other. -/
theorem tokenize_insert (hgap : IsGap blanks.toList) (hne : blanks ≠ "") (a b : String) :
    tokenize (a ++ blanks ++ b) = (tokenize a).dropLast ++ tokenize b := by
  have hfirst : ¬ Glues a (blanks ++ b) := by
    have hcons := List.exists_cons_of_ne_nil (mt String.toList_eq_nil_iff.mp hne)
    rcases hcons with ⟨first, tail, htoList⟩
    apply not_glues_of_head?
    rw [String.toList_append, htoList]
    rintro c ⟨rfl⟩
    apply hgap
    rw [htoList]
    exact List.mem_cons_self
  have hblanks : (tokenize blanks).dropLast = [] := by
    rw [dropLast_tokenize, properLexemes_of_isGap hgap]
    rfl
  rw [String.append_assoc, tokenize_append hfirst, tokenize_append (not_glues_of_isGap hgap),
    hblanks, List.nil_append]

/-- Blanks that are put into a text leave its tokens as they are exactly if no lexeme begins
before them and goes on behind them. -/
theorem tokenize_insert_blanks_iff {i : Nat} {before after : List Char}
    (hsplit : Utf8.splitAt? i source.toList = some (before, after))
    (hgap : IsGap blanks.toList) (hne : blanks ≠ "") :
    tokenize (String.ofList before ++ blanks ++ String.ofList after) = tokenize source ↔
      ∀ l ∈ lexemes source, ¬ (l.span.start < i ∧ i < l.span.stop) := by
  have hparts := Utf8.eq_append_of_splitAt? hsplit
  rcases Utf8.splitAt?_eq_some_iff.mp hsplit with ⟨-, rfl⟩
  have hcrosses := exists_crosses_iff_glues (a := String.ofList before) (b := String.ofList after)
  rw [String.toList_ofList, ← hparts] at hcrosses
  rw [tokenize_insert hgap hne, eq_comm, hparts, tokenize_append_eq_iff, ← hcrosses, ← hparts]
  simp only [Lexeme.Crosses, not_exists, not_and]

/-- A blank between the two equals signs of a comparison makes two assignments of it. -/
theorem tokenize_insert_into_comparison :
    Utf8.splitAt? 2 "a==b".toList = some (['a', '='], ['=', 'b']) ∧ IsGap "\n".toList ∧
      "\n" ≠ "" ∧
      tokenize (String.ofList ['a', '='] ++ "\n" ++ String.ofList ['=', 'b']) ≠
        tokenize "a==b" := by
  have hsplit : Utf8.splitAt? 2 "a==b".toList = some (['a', '='], ['=', 'b']) := by
    decide
  have hgap : IsGap "\n".toList := by
    decide
  have hne : "\n" ≠ "" := by
    decide
  refine ⟨hsplit, hgap, hne, ?_⟩
  rw [ne_eq, tokenize_insert_blanks_iff hsplit hgap hne]
  have hmem : ⟨⟨.symbol .equal, "=="⟩, ⟨1, 3, 1⟩⟩ ∈ lexemes "a==b" := by
    rw [lexemes, Cursor.lexemes_eq, Cursor.lexemes_eq]
    decide
  intro hnone
  exact hnone _ hmem (by decide)

end MonkeyTokens
