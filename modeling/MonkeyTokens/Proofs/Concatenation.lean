import MonkeyTokens.Proofs.Reading
import MonkeyTokens.Proofs.Within

/-!
# Lexemes of concatenated texts

Two texts glue if the last lexeme of the first stands at its very end and goes on
into the second.  The lexemes of two texts that do not glue are those of the first,
without its end, and those of the second, moved by the length of the first.  When
they glue, only the last lexeme of the first text is lost.

Main results:

- Theorem `Reading.append`: a reading is not disturbed by text that does not glue.
- Theorem `Reading.append_glued_eq`: text that glues makes the last lexeme longer, and
  changes no other.
- Theorem `lexemes_append_eq_iff`: the law of concatenation, with its exact condition.
-/

namespace MonkeyTokens

/-! ## Moving lexemes -/

/-- A lexeme so many bytes and lines further on. -/
def Lexeme.shift (bytes lines : Nat) (l : Lexeme) : Lexeme :=
  { l with
    span :=
      { start := l.span.start + bytes
        stop := l.span.stop + bytes
        line := l.span.line + lines } }

/-- A cursor so many bytes and lines further on, before the same text. -/
def Cursor.shift (bytes lines : Nat) (c : Cursor) : Cursor :=
  { c with
    offset := c.offset + bytes
    line := c.line + lines }

variable {c : Cursor} {ls : List Lexeme}

/-- Moving a cursor moves what is read from it. -/
theorem Reading.shift (bytes lines : Nat) (h : Reading c ls) :
    Reading (c.shift bytes lines) (ls.map (Lexeme.shift bytes lines)) := by
  induction h with
  | @done c hgap =>
    have hend : (c.shift bytes lines).finish.endLexeme =
        c.finish.endLexeme.shift bytes lines := by
      simp [Cursor.endLexeme, Cursor.finish, Cursor.shift, Lexeme.shift, Nat.add_right_comm]
    rw [List.map_singleton, ← hend]
    exact Reading.done hgap
  | @more c gap m later hahead hlater ih =>
    have hlexeme : (c.shift bytes lines).lexemeAfter gap m =
        (c.lexemeAfter gap m).shift bytes lines := by
      simp [Cursor.lexemeAfter, Cursor.shift, Lexeme.shift, Nat.add_right_comm]
    have hbehind : (c.shift bytes lines).behind gap m = (c.behind gap m).shift bytes lines := by
      simp [Cursor.behind, Cursor.pass, Cursor.shift, Nat.add_right_comm]
    have hahead' : (c.shift bytes lines).Ahead gap m :=
      ⟨hahead.rest_eq, hahead.isGap, hahead.maximal⟩
    rw [List.map_cons, ← hlexeme]
    apply Reading.more hahead'
    rw [hbehind]
    exact ih

/-! ## Gluing -/

/-- The lexeme before the end stops at `stop`, and the text that comes next begins
with a character that it would have taken. -/
def GluesAt (stop : Nat) (ls : List Lexeme) (next : List Char) : Prop :=
  ∃ l ∈ ls.dropLast.getLast?, l.span.stop = stop ∧
    ∃ x ∈ next.head?, l.token.kind.Extends x

/-- A cursor before a text that goes on further. -/
def Cursor.extend (c : Cursor) (next : List Char) : Cursor :=
  { c with rest := c.rest ++ next }

variable {gap : List Char} {m : Munch} {later : List Lexeme} {next : List Char}

/-- A text has its end where it had it before a lexeme was read from it. -/
theorem Cursor.Ahead.finish_behind (h : c.Ahead gap m) : (c.behind gap m).finish = c.finish := by
  simp [Cursor.finish, Cursor.behind, h.rest_eq]

/-- Nothing but the end is read behind the last character. -/
theorem Reading.eq_singleton (h : Reading c ls) (hrest : c.rest = []) :
    ls = [c.finish.endLexeme] := by
  have hgap : IsGap c.rest := hrest ▸ isGap_nil
  rw [reading_iff.mp h, Cursor.lexemes_of_isGap hgap]

/-- A lexeme stops at the end of its text exactly when nothing is left behind it. -/
theorem Cursor.Ahead.stop_eq_iff (h : c.Ahead gap m) :
    (c.lexemeAfter gap m).span.stop = c.finish.offset ↔ m.rest = [] := by
  rw [← Utf8.width_eq_zero_iff]
  simp only [lexemeAfter, Cursor.finish, pass_offset, h.rest_eq, Utf8.width_append]
  omega

/-- Whether lexemes glue is up to the last of them, if it stops where the text does. -/
theorem gluesAt_iff_of_getLast? {l : Lexeme} {stop : Nat}
    (hl : ls.dropLast.getLast? = some l) (hstop : l.span.stop = stop) :
    GluesAt stop ls next ↔ ∃ x ∈ next.head?, l.token.kind.Extends x := by
  constructor
  · intro h
    rcases h with ⟨l', hl', -, hext⟩
    have heq : l = l' := Option.some.inj (hl.symm.trans hl')
    rw [heq]
    exact hext
  · intro hext
    exact ⟨l, hl, hstop, hext⟩

/-- A lexeme that takes the last character of a text glues with what would extend it. -/
theorem gluesAt_cons_of_rest_eq_nil (hahead : c.Ahead gap m)
    (hlater : Reading (c.behind gap m) later) (hrest : m.rest = []) :
    GluesAt c.finish.offset (c.lexemeAfter gap m :: later) next ↔
      ∃ x ∈ next.head?, m.kind.Extends x := by
  have hlast : (c.lexemeAfter gap m :: later).dropLast.getLast? = some (c.lexemeAfter gap m) := by
    rw [hlater.eq_singleton hrest]
    rfl
  exact gluesAt_iff_of_getLast? hlast (hahead.stop_eq_iff.mpr hrest)

/-- There is a lexeme before the end of lexemes that glue. -/
theorem GluesAt.dropLast_ne_nil {stop : Nat} (h : GluesAt stop ls next) :
    ls.dropLast ≠ [] := by
  rcases h with ⟨l, hl, -⟩
  intro hnil
  rw [hnil] at hl
  cases hl

/-- A lexeme with text behind it plays no part in gluing. -/
theorem gluesAt_cons_of_rest_ne_nil (hahead : c.Ahead gap m)
    (hlater : Reading (c.behind gap m) later) (hrest : m.rest ≠ []) :
    GluesAt c.finish.offset (c.lexemeAfter gap m :: later) next ↔
      GluesAt (c.behind gap m).finish.offset later next := by
  rw [hahead.finish_behind, GluesAt, List.dropLast_cons_of_ne_nil hlater.ne_nil]
  by_cases hnil : later.dropLast = []
  · -- Only the lexeme itself could glue, but it does not reach the end.
    constructor
    · rw [hnil]
      intro h
      rcases h with ⟨l, hl, hl', -⟩
      cases hl
      exact absurd (hahead.stop_eq_iff.mp hl') hrest
    · intro h
      exact absurd hnil h.dropLast_ne_nil
  · rw [List.getLast?_cons_of_ne_nil hnil]
    rfl

/-! ## Reading on into the next text -/

/-- A lexeme stays as it is if the longer text does not extend it. -/
theorem Cursor.Ahead.extend (h : c.Ahead gap m)
    (hstop : ∀ x ∈ (m.rest ++ next).head?, ¬ m.kind.Extends x) :
    (c.extend next).Ahead gap { m with rest := m.rest ++ next } := by
  refine ⟨?_, h.isGap, h.maximal.1, hstop⟩
  simp [Cursor.extend, h.rest_eq, List.append_assoc]

/-- A lexeme with text behind it is not extended by what comes later. -/
theorem Cursor.Ahead.not_extends_append (h : c.Ahead gap m) (hrest : m.rest ≠ [])
    (next : List Char) : ∀ x ∈ (m.rest ++ next).head?, ¬ m.kind.Extends x := by
  rcases List.exists_cons_of_ne_nil hrest with ⟨first, tail, htail⟩
  have hstop := h.maximal.2
  rw [htail] at hstop ⊢
  exact hstop

/-- The lexemes of the longer text begin with a lexeme that is not extended. -/
theorem Cursor.Ahead.lexemes_extend (h : c.Ahead gap m)
    (hstop : ∀ x ∈ (m.rest ++ next).head?, ¬ m.kind.Extends x) :
    (c.extend next).lexemes =
      c.lexemeAfter gap m :: ((c.behind gap m).extend next).lexemes :=
  Cursor.lexemes_of_ahead (h.extend hstop)

/-- A lexeme at the end of its text takes the character that extends it. -/
theorem Cursor.Ahead.exists_longer (h : c.Ahead gap m) (hrest : m.rest = [])
    (hext : ∃ x ∈ next.head?, m.kind.Extends x) :
    ∃ longer, (c.extend next).Ahead gap longer ∧ ∃ x, m.text ++ [x] <+: longer.text := by
  rcases hext with ⟨x, hx, hext⟩
  rcases List.head?_eq_some_iff.mp (Option.mem_def.mp hx) with ⟨after, rfl⟩
  have hfits := h.maximal.1
  rcases List.exists_cons_of_ne_nil hfits.ne_nil with ⟨first, tail, htext⟩
  rw [htext] at hfits
  refine ⟨munch first (tail ++ x :: after), ⟨?_, h.isGap, ?_⟩, x, ?_⟩
  · rw [munch_text_append_rest, Cursor.extend, h.rest_eq, hrest, htext, List.append_nil,
      List.append_assoc, List.cons_append]
  · exact maximal_munch (hfits.not_mem_blankChars List.mem_cons_self) _
  · rw [htext]
    exact prefix_munch_of_extends hfits hext after

/-- Text that does not glue leaves a reading as it is, and is read on its own. -/
theorem Reading.append (h : Reading c ls)
    (hglue : ¬ GluesAt c.finish.offset ls next) :
    (c.extend next).lexemes = ls.dropLast ++ (c.pass c.rest next).lexemes := by
  induction h with
  | done hgap => exact Cursor.lexemes_of_gap rfl hgap
  | @more c gap m later hahead hlater ih =>
    have hpass : (c.behind gap m).pass (c.behind gap m).rest next = c.pass c.rest next := by
      simp [Cursor.behind, hahead.rest_eq]
    rw [List.dropLast_cons_of_ne_nil hlater.ne_nil, List.cons_append, ← hpass]
    by_cases hrest : m.rest = []
    · rw [gluesAt_cons_of_rest_eq_nil hahead hlater hrest] at hglue
      have hstop : ∀ x ∈ (m.rest ++ next).head?, ¬ m.kind.Extends x := by
        rw [hrest, List.nil_append]
        intro x hx hext
        exact hglue ⟨x, hx, hext⟩
      have hglue' : ¬ GluesAt (c.behind gap m).finish.offset later next := by
        intro h
        apply h.dropLast_ne_nil
        rw [hlater.eq_singleton hrest]
        rfl
      rw [hahead.lexemes_extend hstop, ih hglue']
    · rw [gluesAt_cons_of_rest_ne_nil hahead hlater hrest] at hglue
      rw [hahead.lexemes_extend (hahead.not_extends_append hrest next), ih hglue]

/-- Text that glues makes the last lexeme of a reading reach into it, and changes no other. -/
theorem Reading.append_glued_eq (h : Reading c ls)
    (hglue : GluesAt c.finish.offset ls next) :
    ∃ last longer later,
      ls.dropLast.getLast? = some last ∧
        (c.extend next).lexemes = ls.dropLast.dropLast ++ longer :: later ∧
        longer.span.start < c.finish.offset ∧ c.finish.offset < longer.span.stop ∧
        longer.token ≠ last.token := by
  induction h with
  | done hgap => exact absurd rfl hglue.dropLast_ne_nil
  | @more c gap m later hahead hlater ih =>
    by_cases hrest : m.rest = []
    · have hext := (gluesAt_cons_of_rest_eq_nil hahead hlater hrest).mp hglue
      rcases hahead.exists_longer hrest hext with ⟨longer, hlonger, x, hprefix⟩
      have hwidth := Utf8.width_lt_of_prefix hprefix
      have hpos : 0 < Utf8.width m.text :=
        Nat.pos_of_ne_zero (mt Utf8.width_eq_zero_iff.mp hahead.maximal.1.ne_nil)
      have hfinish : c.finish.offset = c.offset + Utf8.width gap + Utf8.width m.text := by
        rw [← hahead.stop_eq_iff.mpr hrest]
        rfl
      rw [hlater.eq_singleton hrest]
      refine ⟨c.lexemeAfter gap m, (c.extend next).lexemeAfter gap longer, _, rfl,
        Cursor.lexemes_of_ahead hlonger, ?_, ?_, ?_⟩
      · rw [hfinish]
        exact Nat.lt_add_of_pos_right hpos
      · rw [hfinish]
        exact Nat.add_lt_add_left hwidth _
      · intro htoken
        have htext : longer.text = m.text := String.ofList_injective (congrArg Token.literal htoken)
        rw [htext] at hwidth
        exact Nat.lt_irrefl _ hwidth
    · rw [gluesAt_cons_of_rest_ne_nil hahead hlater hrest] at hglue
      rcases ih hglue with ⟨last, longer, after, hlast, hlexemes, hspan⟩
      rw [hahead.finish_behind] at hspan
      refine ⟨last, longer, after, ?_, ?_, hspan⟩
      · rw [List.dropLast_cons_of_ne_nil hlater.ne_nil,
          List.getLast?_cons_of_ne_nil hglue.dropLast_ne_nil, hlast]
      · rw [hahead.lexemes_extend (hahead.not_extends_append hrest next), hlexemes,
          List.dropLast_cons_of_ne_nil hlater.ne_nil,
          List.dropLast_cons_of_ne_nil hglue.dropLast_ne_nil, List.cons_append]

/-- The tokens of a text are not read again from what glues with it. -/
theorem Reading.not_tokens_prefix_of_glued (h : Reading c ls)
    (hglue : GluesAt c.finish.offset ls next) :
    ¬ ls.dropLast.map Lexeme.token <+: (c.extend next).lexemes.map Lexeme.token := by
  rcases h.append_glued_eq hglue with ⟨last, longer, later, hlast, hlexemes, -, -, hne⟩
  intro hfront
  rcases List.getLast?_eq_some_iff.mp hlast with ⟨before, hbefore⟩
  rw [hlexemes, hbefore, List.dropLast_concat, List.map_append, List.map_append,
    List.prefix_append_right_inj] at hfront
  exact hne (List.cons_prefix_cons.mp hfront).1.symm

/-- Text that glues changes the last lexeme of a reading, and no other. -/
theorem Reading.append_glued (h : Reading c ls)
    (hglue : GluesAt c.finish.offset ls next) :
    ls.dropLast.dropLast <+: (c.extend next).lexemes ∧
      ¬ ls.dropLast <+: (c.extend next).lexemes := by
  constructor
  · rcases h.append_glued_eq hglue with ⟨last, longer, later, -, hlexemes, -⟩
    rw [hlexemes]
    exact List.prefix_append _ _
  · intro hfront
    exact h.not_tokens_prefix_of_glued hglue (hfront.map Lexeme.token)

/-! ## The end of a text -/

/-- Either the last lexeme of a text stands at its very end, or the text ends in
blanks. -/
theorem Reading.last_cases (h : Reading c ls) :
    (∃ l before text, ls.dropLast.getLast? = some l ∧ l.span.stop = c.finish.offset ∧
        c.rest = before ++ text ∧ l.token.kind.Fits text) ∨
      ((∀ x ∈ c.rest.getLast?, x ∈ blankChars) ∧
        ∀ l ∈ ls.dropLast.getLast?, l.span.stop ≠ c.finish.offset) := by
  induction h with
  | @done c hgap =>
    right
    constructor
    · intro x hx
      exact hgap x (List.mem_of_getLast? hx)
    · rintro l ⟨⟩
  | @more c gap m later hahead hlater ih =>
    rw [List.dropLast_cons_of_ne_nil hlater.ne_nil]
    by_cases hrest : m.rest = []
    · left
      refine ⟨c.lexemeAfter gap m, gap, m.text, ?_, hahead.stop_eq_iff.mpr hrest, ?_,
        hahead.maximal.1⟩
      · rw [hlater.eq_singleton hrest]
        rfl
      · rw [hahead.rest_eq, hrest, List.append_nil]
    · have hlast : c.rest.getLast? = m.rest.getLast? := by
        rw [hahead.rest_eq, ← List.append_assoc]
        rw [List.getLast?_append, List.getLast?_eq_some_getLast hrest]
        rfl
      rw [hahead.finish_behind] at ih
      rcases ih with ⟨l, before, text, hl, hstop, hbehind, hfits⟩ | ⟨hblank, hstop⟩
      · left
        have hne : later.dropLast ≠ [] := by
          intro hnil
          rw [hnil] at hl
          cases hl
        refine ⟨l, gap ++ (m.text ++ before), text, ?_, hstop, ?_, hfits⟩
        · rwa [List.getLast?_cons_of_ne_nil hne]
        · have hrest' : m.rest = before ++ text := hbehind
          simp only [hahead.rest_eq, hrest', List.append_assoc]
      · right
        refine ⟨hlast ▸ hblank, ?_⟩
        by_cases hnil : later.dropLast = []
        · rw [hnil]
          rintro l ⟨rfl⟩
          exact mt hahead.stop_eq_iff.mp hrest
        · rwa [List.getLast?_cons_of_ne_nil hnil]

/-! ## The law of concatenation -/

/-- Two texts glue if a word or a number goes on from the first into the second, or if
the second begins with an equals sign that joins the last symbol of the first. -/
def Glues (a b : String) : Prop :=
  (∃ x y, a.toList.getLast? = some x ∧ b.toList.head? = some y ∧
      ((isLetter x = true ∧ isLetter y = true) ∨ (x.isDigit = true ∧ y.isDigit = true))) ∨
    (b.toList.head? = some '=' ∧
      ∃ l, (lexemes a).dropLast.getLast? = some l ∧
        (l.token.kind = .symbol .assign ∨ l.token.kind = .symbol .bang) ∧
        l.span.stop = Utf8.width a.toList)

/-- The end of the first text lies as many bytes behind its start as it is long. -/
theorem offset_finish_atStart (a : String) :
    (Cursor.atStart a).finish.offset = Utf8.width a.toList := by
  simp [Cursor.atStart, Cursor.finish]

variable {a b : String}

/-- A text that ends in a lexeme glues with what would extend that lexeme. -/
theorem glues_iff_of_getLast? {l : Lexeme} {before text : List Char}
    (hl : (lexemes a).dropLast.getLast? = some l) (hstop : l.span.stop = Utf8.width a.toList)
    (hrest : a.toList = before ++ text) (hfits : l.token.kind.Fits text) :
    Glues a b ↔ ∃ y ∈ b.toList.head?, l.token.kind.Extends y := by
  -- The last character is one of the lexeme's, so its class tells the kind.
  have hmem : text.getLast hfits.ne_nil ∈ text := List.getLast_mem hfits.ne_nil
  have hlast : a.toList.getLast? = some (text.getLast hfits.ne_nil) := by
    rw [hrest, List.getLast?_append, List.getLast?_eq_some_getLast hfits.ne_nil]
    rfl
  constructor
  · intro h
    rcases h with ⟨x, y, hx, hy, hxy⟩ | ⟨hy, l', hl', hkind, -⟩
    · have hxlast : text.getLast hfits.ne_nil = x := Option.some.inj (hlast.symm.trans hx)
      subst hxlast
      refine ⟨y, hy, Kind.extends_iff.mpr ?_⟩
      rcases hxy with ⟨hletter, hy⟩ | ⟨hdigit, hy⟩
      · exact Or.inl ⟨(hfits.isLetter_iff hmem).mp hletter, hy⟩
      · exact Or.inr (Or.inl ⟨(hfits.isDigit_iff hmem).mp hdigit, hy⟩)
    · have hll' : l = l' := Option.some.inj (hl.symm.trans hl')
      subst hll'
      exact ⟨'=', hy, Kind.extends_iff.mpr (Or.inr (Or.inr ⟨hkind, rfl⟩))⟩
  · intro h
    rcases h with ⟨y, hy, hext⟩
    rcases Kind.extends_iff.mp hext with ⟨hword, hletter⟩ | ⟨hint, hdigit⟩ | ⟨hkind, hequals⟩
    · exact Or.inl ⟨_, y, hlast, hy, Or.inl ⟨(hfits.isLetter_iff hmem).mpr hword, hletter⟩⟩
    · exact Or.inl ⟨_, y, hlast, hy, Or.inr ⟨(hfits.isDigit_iff hmem).mpr hint, hdigit⟩⟩
    · subst hequals
      exact Or.inr ⟨hy, l, hl, hkind, hstop⟩

/-- A text that ends in blanks glues with nothing. -/
theorem not_glues_of_blank (hblank : ∀ x ∈ a.toList.getLast?, x ∈ blankChars)
    (hstop : ∀ l ∈ (lexemes a).dropLast.getLast?, l.span.stop ≠ Utf8.width a.toList) :
    ¬ Glues a b := by
  intro h
  rcases h with ⟨x, y, hx, -, hxy⟩ | ⟨-, l, hl, -, hl'⟩
  · have hx' := hblank x hx
    rcases hxy with ⟨hletter, -⟩ | ⟨hdigit, -⟩
    · exact Kind.not_extends_of_mem_blankChars (k := .ident) hx' hletter
    · exact Kind.not_extends_of_mem_blankChars (k := .int) hx' hdigit
  · exact hstop l hl hl'

/-- Texts glue exactly when the last lexeme of the first goes on into the second. -/
theorem glues_iff_gluesAt :
    Glues a b ↔ GluesAt (Utf8.width a.toList) (lexemes a) b.toList := by
  have hcases := (reading_lexemes (.atStart a)).last_cases
  rw [offset_finish_atStart] at hcases
  rcases hcases with ⟨l, before, text, hl, hstop, hrest, hfits⟩ | ⟨hblank, hstop⟩
  · rw [glues_iff_of_getLast? hl hstop hrest hfits]
    exact (gluesAt_iff_of_getLast? hl hstop).symm
  · apply iff_of_false (not_glues_of_blank hblank hstop)
    intro h
    rcases h with ⟨l, hl, hl', -⟩
    exact hstop l hl hl'

/-- Behind the first text, the lexemes of the second are read as ever, but moved. -/
theorem lexemes_pass_atStart (a b : String) :
    ((Cursor.atStart a).pass a.toList b.toList).lexemes =
      (lexemes b).map (Lexeme.shift (Utf8.width a.toList) (a.toList.count '\n')) := by
  have hshift : (Cursor.atStart a).pass a.toList b.toList =
      (Cursor.atStart b).shift (Utf8.width a.toList) (a.toList.count '\n') := rfl
  rw [hshift]
  exact (reading_iff.mp ((reading_lexemes (.atStart b)).shift _ _)).symm

/-- The cursor before two texts put together is the one before the first, extended. -/
theorem lexemes_append_eq_extend (a b : String) :
    lexemes (a ++ b) = ((Cursor.atStart a).extend b.toList).lexemes := by
  simp [lexemes, Cursor.atStart, Cursor.extend]

theorem glues_iff_gluesAt_finish :
    Glues a b ↔ GluesAt (Cursor.atStart a).finish.offset (lexemes a) b.toList := by
  rw [offset_finish_atStart]
  exact glues_iff_gluesAt

/-- The lexemes of two texts put together are those of the first without its end and
those of the second, moved behind it, exactly when the texts do not glue.  When they
glue, the lexemes of the first text are still there up to the last. -/
theorem lexemes_append_eq_iff (a b : String) :
    (lexemes (a ++ b) =
        (lexemes a).dropLast ++
          (lexemes b).map (Lexeme.shift (Utf8.width a.toList) (a.toList.count '\n')) ↔
      ¬ Glues a b) ∧
      (Glues a b → (lexemes a).dropLast.dropLast <+: lexemes (a ++ b)) := by
  have hread : Reading (.atStart a) (lexemes a) := reading_lexemes (.atStart a)
  rw [lexemes_append_eq_extend, glues_iff_gluesAt_finish, ← lexemes_pass_atStart]
  refine ⟨⟨?_, ?_⟩, ?_⟩
  · intro heq hglue
    apply (hread.append_glued hglue).2
    rw [heq]
    exact List.prefix_append _ _
  · intro hglue
    exact hread.append hglue
  · intro hglue
    exact (hread.append_glued hglue).1

/-- A keyword that is cut in two is put together again. -/
theorem lexemes_append_cut_keyword :
    Glues "x le" "t y" ∧
      (lexemes "x le").dropLast.dropLast <+: lexemes ("x le" ++ "t y") := by
  have hglues : Glues "x le" "t y" := Or.inl ⟨'e', 't', rfl, rfl, Or.inl ⟨rfl, rfl⟩⟩
  exact ⟨hglues, (lexemes_append_eq_iff "x le" "t y").2 hglues⟩

end MonkeyTokens
