import MonkeyTokens.Cursor
import MonkeyTokens.Proofs.LongestLexeme

/-!
# Readings

What a cursor gives next is told by a split of the text before it: blanks, a
fitting literal, and a rest that does not go on with the literal.  A reading is a
list of such splits, each beginning where the one before ends, up to the end of the
text.  Readings are what the lexemes from a cursor are proved about: an induction on
a reading meets one lexeme at a time, with the split that it comes from.

Main results:

- Theorem `Cursor.next_of_ahead`: a split of the text ahead tells what is read next.
- Theorem `Cursor.blank_or_ahead`: there is such a split unless only blanks are left.
- Theorem `reading_iff`: the only reading from a cursor is the list of its lexemes.
-/

namespace MonkeyTokens

/-- Holds of texts made of blanks alone. -/
def IsGap (text : List Char) : Prop :=
  ∀ c ∈ text, c ∈ blankChars

instance (text : List Char) : Decidable (IsGap text) :=
  List.decidableBAll (· ∈ blankChars) text

theorem isGap_nil : IsGap [] := by
  simp [IsGap]

/-- Blanks are skipped, and a text that does not begin with one stays. -/
theorem takeWhile_isBlank {gap rest : List Char} (hgap : IsGap gap)
    (hrest : ∀ c ∈ rest.head?, c ∉ blankChars) :
    (gap ++ rest).takeWhile isBlank = gap ∧ (gap ++ rest).dropWhile isBlank = rest := by
  have hrun : ∀ c ∈ gap, isBlank c = true := by
    intro c hc
    exact isBlank_iff.mpr (hgap c hc)
  have hstop : ∀ c ∈ rest.head?, isBlank c = false := by
    intro c hc
    rw [Bool.eq_false_iff, ne_eq, isBlank_iff]
    exact hrest c hc
  exact ⟨takeWhile_append_of_head? hrun hstop, dropWhile_append_of_head? hrun hstop⟩

/-- A text that begins with a fitting literal does not begin with a blank. -/
theorem Kind.Fits.head?_not_mem_blankChars {k : Kind} {text : List Char} (h : k.Fits text)
    (rest : List Char) : ∀ c ∈ (text ++ rest).head?, c ∉ blankChars := by
  rcases List.exists_cons_of_ne_nil h.ne_nil with ⟨first, tail, rfl⟩
  rintro c ⟨rfl⟩
  exact h.not_mem_blankChars List.mem_cons_self

namespace Cursor

/-! ## Passing over text -/

@[simp]
theorem pass_rest (c : Cursor) (text rest : List Char) : (c.pass text rest).rest = rest :=
  rfl

@[simp]
theorem pass_offset (c : Cursor) (text rest : List Char) :
    (c.pass text rest).offset = c.offset + Utf8.width text :=
  rfl

@[simp]
theorem pass_line (c : Cursor) (text rest : List Char) :
    (c.pass text rest).line = c.line + text.count '\n' :=
  rfl

/-- Passing over two texts in turn is passing over both at once. -/
@[simp]
theorem pass_pass (c : Cursor) (first second middle rest : List Char) :
    (c.pass first middle).pass second rest = c.pass (first ++ second) rest := by
  simp [pass, Nat.add_assoc]

/-! ## What comes next -/

/-- The cursor at the end of its text. -/
def finish (c : Cursor) : Cursor :=
  c.pass c.rest []

/-- The end lexeme, as read at a cursor. -/
def endLexeme (c : Cursor) : Lexeme :=
  ⟨.endOfText, ⟨c.offset, c.offset, c.line⟩⟩

/-- The text before a cursor begins with the blanks `gap` and the lexeme `m`. -/
structure Ahead (c : Cursor) (gap : List Char) (m : Munch) : Prop where
  rest_eq : c.rest = gap ++ (m.text ++ m.rest)
  isGap : IsGap gap
  maximal : m.Maximal

/-- The lexeme `m` behind the blanks `gap`, as read from a cursor. -/
def lexemeAfter (c : Cursor) (gap : List Char) (m : Munch) : Lexeme where
  token := ⟨m.kind, String.ofList m.text⟩
  span :=
    { start := c.offset + Utf8.width gap
      stop := c.offset + Utf8.width gap + Utf8.width m.text
      line := c.line + gap.count '\n' }

/-- The cursor behind the blanks `gap` and the lexeme `m`. -/
def behind (c : Cursor) (gap : List Char) (m : Munch) : Cursor :=
  c.pass (gap ++ m.text) m.rest

/-- Among blanks alone, the end is read. -/
theorem next_of_isGap {c : Cursor} (h : IsGap c.rest) :
    c.next = (c.finish.endLexeme, c.finish) := by
  have hnil : ∀ x ∈ ([] : List Char).head?, x ∉ blankChars := by simp
  rcases takeWhile_isBlank h hnil with ⟨htake, hdrop⟩
  rw [List.append_nil] at htake hdrop
  rw [next, skipBlanks, htake, hdrop]
  rfl

/-- A split of the text ahead tells what is read next. -/
theorem next_of_ahead {c : Cursor} {gap : List Char} {m : Munch} (h : c.Ahead gap m) :
    c.next = (c.lexemeAfter gap m, c.behind gap m) := by
  rcases List.exists_cons_of_ne_nil h.maximal.1.ne_nil with ⟨first, text, htext⟩
  rcases takeWhile_isBlank h.isGap (h.maximal.1.head?_not_mem_blankChars m.rest) with ⟨htake, hdrop⟩
  have hmunch : munch first (text ++ m.rest) = m :=
    munch_eq_of_maximal (by rw [htext]; rfl) h.maximal
  rw [next, skipBlanks, h.rest_eq, htake, hdrop, read, pass_rest, htext, List.cons_append]
  simp only [hmunch, pass_pass]
  simp only [lexemeAfter, behind, pass_offset, pass_line, Utf8.width_append, Nat.add_assoc]

/-- Either only blanks are left or a lexeme comes next. -/
theorem blank_or_ahead (c : Cursor) : IsGap c.rest ∨ ∃ gap m, c.Ahead gap m := by
  have hsplit : c.rest.takeWhile isBlank ++ c.rest.dropWhile isBlank = c.rest :=
    List.takeWhile_append_dropWhile
  have hgap : IsGap (c.rest.takeWhile isBlank) := by
    intro x hx
    exact isBlank_iff.mp (eq_true_of_mem_takeWhile hx)
  cases hdrop : c.rest.dropWhile isBlank with
  | nil =>
    rw [hdrop, List.append_nil] at hsplit
    exact Or.inl (hsplit ▸ hgap)
  | cons first after =>
    have hhead : first ∈ (c.rest.dropWhile isBlank).head? := by
      rw [hdrop]
      rfl
    have hfirst : first ∉ blankChars := by
      rw [← isBlank_iff, Bool.not_eq_true]
      exact eq_false_of_mem_head?_dropWhile hhead
    refine Or.inr ⟨_, munch first after, ?_, hgap, maximal_munch hfirst after⟩
    rw [munch_text_append_rest, ← hdrop, hsplit]

/-- A lexeme that was split off is not the end. -/
theorem isEof_lexemeAfter {c : Cursor} {gap : List Char} {m : Munch} (h : m.Maximal) :
    (c.lexemeAfter gap m).isEof = false := by
  simpa [lexemeAfter, Lexeme.isEof, Token.isEof] using h.1.ne_eof

/-- A fitting literal behind blanks is maximal if it is what is read. -/
theorem ahead_of_token_eq {c : Cursor} {gap : List Char} {m : Munch}
    (hrest : c.rest = gap ++ (m.text ++ m.rest)) (hgap : IsGap gap) (hfits : m.kind.Fits m.text)
    (htoken : c.next.1.token = ⟨m.kind, String.ofList m.text⟩) : c.Ahead gap m := by
  have hblanks := takeWhile_isBlank hgap (hfits.head?_not_mem_blankChars m.rest)
  rw [← hrest] at hblanks
  rcases c.blank_or_ahead with hgap' | ⟨gap', m', hahead⟩
  · rw [next_of_isGap hgap'] at htoken
    exact absurd (congrArg Token.kind htoken).symm hfits.ne_eof
  · have hblanks' :=
      takeWhile_isBlank hahead.isGap (hahead.maximal.1.head?_not_mem_blankChars m'.rest)
    rw [← hahead.rest_eq] at hblanks'
    rw [next_of_ahead hahead] at htoken
    have hkind : m'.kind = m.kind := congrArg Token.kind htoken
    have htext : m'.text = m.text := String.ofList_injective (congrArg Token.literal htoken)
    have hsplit := hblanks'.2.symm.trans hblanks.2
    rw [htext] at hsplit
    have hm : m' = m := by
      rcases m' with ⟨kind', text', rest'⟩
      rcases m with ⟨kind, text, rest⟩
      simp only at hkind htext hsplit
      rw [hkind, htext, List.append_cancel_left hsplit]
    rw [← hm, ← hblanks.1, hblanks'.1]
    exact hahead

theorem isEof_endLexeme (c : Cursor) : c.endLexeme.isEof = true :=
  rfl

/-- The end is read exactly where only blanks are left. -/
theorem isEof_next_iff {c : Cursor} : c.next.1.isEof = true ↔ IsGap c.rest := by
  constructor
  · intro h
    rcases c.blank_or_ahead with hgap | ⟨gap, m, hahead⟩
    · exact hgap
    · rw [next_of_ahead hahead, isEof_lexemeAfter hahead.maximal] at h
      cases h
  · intro h
    rw [next_of_isGap h]
    exact isEof_endLexeme _

/-- A lexeme that is not the end comes from a split of the text ahead. -/
theorem exists_ahead {c : Cursor} (h : c.next.1.isEof = false) : ∃ gap m, c.Ahead gap m :=
  c.blank_or_ahead.resolve_left (mt isEof_next_iff.mpr (Bool.eq_false_iff.mp h))

theorem lexemes_of_isGap {c : Cursor} (h : IsGap c.rest) : c.lexemes = [c.finish.endLexeme] := by
  rw [lexemes_eq, next_of_isGap h, if_pos (isEof_endLexeme _)]

theorem lexemes_of_ahead {c : Cursor} {gap : List Char} {m : Munch} (h : c.Ahead gap m) :
    c.lexemes = c.lexemeAfter gap m :: (c.behind gap m).lexemes := by
  rw [lexemes_eq, next_of_ahead h, if_neg (Bool.eq_false_iff.mp (isEof_lexemeAfter h.maximal))]

/-- Reading a lexeme shortens what is left to read. -/
theorem length_rest_behind_lt {c : Cursor} {gap : List Char} {m : Munch} (h : c.Ahead gap m) :
    (c.behind gap m).rest.length < c.rest.length := by
  have hpos := List.length_pos_iff.mpr h.maximal.1.ne_nil
  have hlength := congrArg List.length h.rest_eq
  simp only [List.length_append] at hlength
  simp only [behind, pass_rest]
  omega

/-- Blanks that come next make no difference to the lexemes. -/
theorem lexemes_of_gap {c : Cursor} {gap rest : List Char} (hrest : c.rest = gap ++ rest)
    (hgap : IsGap gap) : c.lexemes = (c.pass gap rest).lexemes := by
  rcases (c.pass gap rest).blank_or_ahead with hblank | ⟨gap', m, hahead⟩
  · have hc : IsGap c.rest := by
      rw [hrest]
      exact List.forall_mem_append.mpr ⟨hgap, hblank⟩
    have hfinish : (c.pass gap rest).finish = c.finish := by
      rw [finish, pass_pass, pass_rest, ← hrest, finish]
    rw [lexemes_of_isGap hc, lexemes_of_isGap hblank, hfinish]
  · have hc : c.Ahead (gap ++ gap') m := by
      refine ⟨?_, List.forall_mem_append.mpr ⟨hgap, hahead.isGap⟩, hahead.maximal⟩
      rw [hrest, List.append_assoc]
      exact congrArg (gap ++ ·) hahead.rest_eq
    have hlexeme : (c.pass gap rest).lexemeAfter gap' m = c.lexemeAfter (gap ++ gap') m := by
      simp [lexemeAfter, Nat.add_assoc]
    have hbehind : (c.pass gap rest).behind gap' m = c.behind (gap ++ gap') m := by
      simp [behind]
    rw [lexemes_of_ahead hc, lexemes_of_ahead hahead, hlexeme, hbehind]

end Cursor

/-! ## Readings -/

/-- Reading on from a cursor gives a list of lexemes, the last of which is the end. -/
inductive Reading : Cursor → List Lexeme → Prop
  | done {c : Cursor} (hgap : IsGap c.rest) : Reading c [c.finish.endLexeme]
  | more {c : Cursor} {gap : List Char} {m : Munch} {later : List Lexeme}
      (hahead : c.Ahead gap m) (hlater : Reading (c.behind gap m) later) :
      Reading c (c.lexemeAfter gap m :: later)

/-- The lexemes from a cursor are a reading. -/
theorem reading_lexemes (c : Cursor) : Reading c c.lexemes := by
  rcases c.blank_or_ahead with hgap | ⟨gap, m, hahead⟩
  · rw [Cursor.lexemes_of_isGap hgap]
    exact Reading.done hgap
  · have := Cursor.length_rest_behind_lt hahead
    rw [Cursor.lexemes_of_ahead hahead]
    exact Reading.more hahead (reading_lexemes (c.behind gap m))
termination_by c.rest.length

/-- The only reading from a cursor is the list of its lexemes. -/
theorem reading_iff {c : Cursor} {lexemes : List Lexeme} :
    Reading c lexemes ↔ lexemes = c.lexemes := by
  constructor
  · intro h
    induction h with
    | done hgap => rw [Cursor.lexemes_of_isGap hgap]
    | more hahead _ ih => rw [Cursor.lexemes_of_ahead hahead, ih]
  · intro h
    subst h
    exact reading_lexemes c

namespace Reading

variable {c : Cursor} {lexemes : List Lexeme}

/-- Every reading has its end. -/
theorem ne_nil (h : Reading c lexemes) : lexemes ≠ [] := by
  cases h <;> exact List.cons_ne_nil _ _

/-- The last lexeme of a reading is the end. -/
theorem getLast?_eq (h : Reading c lexemes) :
    lexemes.getLast? = some c.finish.endLexeme := by
  induction h with
  | done hgap => rfl
  | @more c gap m later hahead hlater ih =>
    have hfinish : (c.behind gap m).finish = c.finish := by
      simp [Cursor.finish, Cursor.behind, hahead.rest_eq]
    rw [List.getLast?_cons_of_ne_nil hlater.ne_nil, ih, hfinish]

/-- A reading is what comes before its end, and the end. -/
theorem eq_dropLast_append (h : Reading c lexemes) :
    lexemes = lexemes.dropLast ++ [c.finish.endLexeme] := by
  rcases List.getLast?_eq_some_iff.mp h.getLast?_eq with ⟨before, hbefore⟩
  rw [hbefore, List.dropLast_concat]

/-- No lexeme before the last is the end. -/
theorem isEof_of_mem_dropLast (h : Reading c lexemes) :
    ∀ l ∈ lexemes.dropLast, l.isEof = false := by
  induction h with
  | done hgap => simp
  | @more c gap m later hahead hlater ih =>
    rw [List.dropLast_cons_of_ne_nil hlater.ne_nil]
    intro l hl
    rcases List.mem_cons.mp hl with rfl | hl
    · exact Cursor.isEof_lexemeAfter hahead.maximal
    · exact ih l hl

/-- The lexemes before the last are all but the end. -/
theorem dropLast_eq_filter (h : Reading c lexemes) :
    lexemes.dropLast = lexemes.filter (fun l => !l.isEof) := by
  have hbefore : lexemes.dropLast.filter (fun l => !l.isEof) = lexemes.dropLast := by
    rw [List.filter_eq_self]
    intro l hl
    rw [h.isEof_of_mem_dropLast l hl]
    rfl
  conv => rhs; rw [h.eq_dropLast_append, List.filter_append, hbefore]
  simp [Cursor.isEof_endLexeme]

end Reading

end MonkeyTokens
