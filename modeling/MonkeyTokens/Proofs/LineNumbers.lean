import MonkeyTokens.Proofs.DiagnosticOrder

/-!
# Two ways to number lines

The scanner begins a new line behind every line feed, and behind nothing else.  Locations
begin one behind each of seven characters, but behind a carriage return only if no line
feed follows it.  Where only ASCII comes before an illegal character, the two numbers of its
line therefore differ by the vertical tabs, the form feeds and the lone carriage returns
before it.

Main results:

- Theorem `endsLine_cons_iff`: the characters of ASCII that end a line.
- Theorem `Location.line_of_append`: the line of a location, as a count of characters.
- Theorem `diagnostic_line_eq`: the line that a diagnostic shows, from the line of the span.
-/

namespace MonkeyTokens

/-! ## Ends of lines other than line feeds -/

/-- The number of carriage returns that no line feed follows.  One at the very end of the
text is counted. -/
def loneReturns : List Char → Nat
  | [] => 0
  | c :: text => (if c = '\r' ∧ text.head? ≠ some '\n' then 1 else 0) + loneReturns text

/-- The number of characters of ASCII that begin a new line of locations, but not of spans. -/
def otherLineEnds (text : List Char) : Nat :=
  text.count '\x0b' + text.count '\x0c' + loneReturns text

variable {text after : List Char} {c next : Char}

/-- No carriage return is alone exactly if a line feed follows each of them. -/
theorem loneReturns_eq_zero_iff :
    loneReturns text = 0 ↔
      ∀ front back, text = front ++ '\r' :: back → back.head? = some '\n' := by
  induction text with
  | nil => simp [loneReturns]
  | cons c text ih =>
    have hfirst : (if c = '\r' ∧ text.head? ≠ some '\n' then 1 else 0) = 0 ↔
        (c = '\r' → text.head? = some '\n') := by
      simp
    rw [loneReturns, Nat.add_eq_zero_iff, ih, hfirst]
    constructor
    · intro h front back hsplit
      cases front with
      | nil =>
        rcases List.cons.inj hsplit with ⟨rfl, rfl⟩
        exact h.1 rfl
      | cons f front => exact h.2 front back (List.cons.inj hsplit).2
    · intro h
      constructor
      · rintro rfl
        exact h [] text rfl
      · rintro front back rfl
        exact h (c :: front) back rfl

theorem otherLineEnds_eq_zero_iff :
    otherLineEnds text = 0 ↔
      '\x0b' ∉ text ∧ '\x0c' ∉ text ∧
        ∀ front back, text = front ++ '\r' :: back → back.head? = some '\n' := by
  rw [← loneReturns_eq_zero_iff, ← List.count_eq_zero, ← List.count_eq_zero, otherLineEnds]
  omega

/-- The characters of ASCII that end a line in front of another character. -/
theorem endsLine_cons_iff (hc : IsAscii c) :
    endsLine c (next :: after) = true ↔
      c = '\n' ∨ c = '\x0b' ∨ c = '\x0c' ∨ (c = '\r' ∧ next ≠ '\n') := by
  have hwide : c ≠ '\u0085' ∧ c ≠ '\u2028' ∧ c ≠ '\u2029' := by
    refine ⟨?_, ?_, ?_⟩
    all_goals
      rintro rfl
      revert hc
      decide
  by_cases hreturn : c = '\r'
  · subst hreturn
    simp [endsLine, lineEnds]
  · simp [endsLine, lineEnds, hreturn, hwide]

/-- Of the characters that end a line, all but the line feed are among the others.  What comes
behind the text must not begin with a line feed, which a carriage return would leave it to. -/
theorem lineEnds_cons (hc : IsAscii c) (hnext : next ≠ '\n') :
    (c :: text).count '\n' + otherLineEnds (c :: text) =
      (if endsLine c (text ++ next :: after) = true then 1 else 0) +
        (text.count '\n' + otherLineEnds text) := by
  have hends : endsLine c (text ++ next :: after) = true ↔
      c = '\n' ∨ c = '\x0b' ∨ c = '\x0c' ∨ (c = '\r' ∧ text.head? ≠ some '\n') := by
    cases text with
    | nil => simp [endsLine_cons_iff hc, hnext]
    | cons first text => simp [endsLine_cons_iff hc]
  by_cases hend : c = '\n' ∨ c = '\x0b' ∨ c = '\x0c' ∨ (c = '\r' ∧ text.head? ≠ some '\n')
  · rw [if_pos (hends.mpr hend)]
    rcases hend with rfl | rfl | rfl | ⟨rfl, hhead⟩
    all_goals simp +arith [otherLineEnds, loneReturns, *]
  · rw [if_neg (mt hends.mp hend)]
    simp only [not_or, not_and, ne_eq, Decidable.not_not] at hend
    rcases hend with ⟨hfeed, htab, hform, hreturn⟩
    simpa [otherLineEnds, loneReturns, hfeed, htab, hform] using hreturn

/-! ## The line of a location -/

namespace Location

theorem line_step (l : Location) (c : Char) (after : List Char) :
    (l.step c after).line = l.line + if endsLine c after = true then 1 else 0 := by
  unfold step
  split <;> rfl

/-- Advancing over ASCII begins a line for each line feed and each of the other ends. -/
theorem line_advance (l : Location) (htext : ∀ x ∈ text, IsAscii x) (hnext : next ≠ '\n')
    (after : List Char) :
    (l.advance (text ++ next :: after) text.length).line =
      l.line + (text.count '\n' + otherLineEnds text) := by
  induction text generalizing l with
  | nil => rfl
  | cons c text ih =>
    have hc : IsAscii c := htext c List.mem_cons_self
    have htail : ∀ x ∈ text, IsAscii x := fun x hx => htext x (List.mem_cons_of_mem c hx)
    have hstep : l.advance (c :: text ++ next :: after) (c :: text).length =
        (l.step c (text ++ next :: after)).advance (text ++ next :: after) text.length := rfl
    rw [hstep, ih _ htail, line_step, lineEnds_cons hc hnext, Nat.add_assoc]

/-- The line of a character behind ASCII, unless the character is a line feed. -/
theorem line_of_append (htext : ∀ x ∈ text, IsAscii x) (hnext : next ≠ '\n')
    (after : List Char) :
    (of (text ++ next :: after) text.length).line =
      1 + text.count '\n' + otherLineEnds text := by
  rw [of, line_advance _ htext hnext, Nat.add_assoc]

end Location

/-! ## The line of a diagnostic -/

variable {source : String} {l : Lexeme} {before : List Char}

/-- The span of an illegal lexeme counts the line feeds before it. -/
theorem StandsAt.line_eq (h : StandsAt source l before c after) (hl : l ∈ lexemes source) :
    l.span.line = 1 + before.count '\n' := by
  have hline := (isTokenization_lexemes source).line l hl
  rw [h.start_eq, Utf8.lineAt?, h.source_eq, Utf8.splitAt?_width] at hline
  exact (Option.some.inj hline).symm

/-- A diagnostic that shows a location behind ASCII shows the line of the span and, on top of
it, the other ends of lines. -/
theorem StandsAt.line_location (h : StandsAt source l before c after) (hl : l ∈ lexemes source)
    (hascii : ∀ x ∈ before, IsAscii x) {path : String} {shown : Location}
    (hshown : (l.diagnostic path source.toList).location? = some shown) :
    shown.line = l.span.line + otherLineEnds before := by
  rcases Location.ofRange?_eq_some_iff.mp hshown with ⟨-, -, rfl⟩
  have hc : c ≠ '\n' := by
    rintro rfl
    exact h.isStray.1 (by decide)
  rw [h.start_eq, Utf8.width_eq_length_iff.mpr hascii, h.source_eq,
    Location.line_of_append hascii hc, h.line_eq hl]

/-- A text has one diagnostic for each illegal lexeme.  If only ASCII comes before the lexeme
and the diagnostic shows a location, it shows the line of the span and, on top of it, the
number of vertical tabs, form feeds and carriage returns without a line feed before the
lexeme.  So the two lines agree exactly if there are none. -/
theorem diagnostic_line_eq (source : String) :
    (∀ path showSpans,
      (Script.run (.ofRoom? none) path source showSpans).diagnostics =
        ((lexemes source).filter Lexeme.isIllegal).map
          (Lexeme.diagnostic path source.toList)) ∧
      diagnose unnamedPath source (lexemes source) =
        ((lexemes source).filter Lexeme.isIllegal).map
          (Lexeme.diagnostic unnamedPath source.toList) ∧
      ∀ l ∈ lexemes source, l.isIllegal = true →
        ∃ before c after, StandsAt source l before c after ∧
          ((∀ x ∈ before, IsAscii x) →
            ∀ path shown, (l.diagnostic path source.toList).location? = some shown →
              shown.line = l.span.line +
                  (before.count '\x0b' + before.count '\x0c' + loneReturns before) ∧
                (shown.line = l.span.line ↔
                  '\x0b' ∉ before ∧ '\x0c' ∉ before ∧
                    ∀ front back, before = front ++ '\r' :: back → back.head? = some '\n')) := by
  refine ⟨fun path => Script.diagnostics_run_unbounded path source, rfl, ?_⟩
  intro l hl hillegal
  rcases exists_standsAt_of_isIllegal hl hillegal with ⟨before, c, after, h⟩
  refine ⟨before, c, after, h, ?_⟩
  intro hascii path shown hshown
  have hline := h.line_location hl hascii hshown
  refine ⟨hline, ?_⟩
  rw [hline, ← otherLineEnds_eq_zero_iff]
  omega

/-- Of two carriage returns before a line feed, one ends a line of its own, and so does a
third right before the illegal character. -/
theorem diagnostic_line_behind_returns :
    ⟨⟨.illegal, "@"⟩, ⟨4, 5, 2⟩⟩ ∈ lexemes "\r\r\n\r@" ∧
      Lexeme.isIllegal ⟨⟨.illegal, "@"⟩, ⟨4, 5, 2⟩⟩ = true ∧
      ∃ before c after, StandsAt "\r\r\n\r@" ⟨⟨.illegal, "@"⟩, ⟨4, 5, 2⟩⟩ before c after ∧
        (∀ x ∈ before, IsAscii x) ∧
        ∃ shown, (Lexeme.diagnostic "a.mk" "\r\r\n\r@".toList
            ⟨⟨.illegal, "@"⟩, ⟨4, 5, 2⟩⟩).location? = some shown ∧
          shown.line = 2 + (before.count '\x0b' + before.count '\x0c' + loneReturns before) ∧
          shown.line = 4 := by
  have hmem : ⟨⟨.illegal, "@"⟩, ⟨4, 5, 2⟩⟩ ∈ lexemes "\r\r\n\r@" := by
    rw [lexemes, Cursor.lexemes_eq, Cursor.lexemes_eq]
    decide
  have hillegal : Lexeme.isIllegal ⟨⟨.illegal, "@"⟩, ⟨4, 5, 2⟩⟩ = true := rfl
  rcases (diagnostic_line_eq "\r\r\n\r@").2.2 _ hmem hillegal with ⟨before, c, after, h, hline⟩
  have hsplit : before = ['\r', '\r', '\n', '\r'] :=
    (Utf8.append_inj_of_width_eq (b := c :: after) (d := ['@'])
      h.source_eq.symm h.start_eq.symm).1
  have hascii : ∀ x ∈ before, IsAscii x := by
    rw [hsplit, ← Utf8.width_eq_length_iff]
    rfl
  have hshown : (Lexeme.diagnostic "a.mk" "\r\r\n\r@".toList
      ⟨⟨.illegal, "@"⟩, ⟨4, 5, 2⟩⟩).location? = some ⟨4, 1⟩ := by
    decide
  exact ⟨hmem, hillegal, before, c, after, h, hascii, ⟨4, 1⟩, hshown,
    (hline hascii "a.mk" ⟨4, 1⟩ hshown).1, rfl⟩

end MonkeyTokens
