import MonkeyTokens.Proofs.LocationOrder
import MonkeyTokens.Proofs.Tokenization
import MonkeyTokens.Script

/-!
# Where diagnostics point

A diagnostic is about one character, but finds its location by taking byte offsets as
offsets of characters.  It points at the character itself if only ASCII comes before
it and its last byte, counted so, does not lie beyond the text.  Otherwise it points at
some other character or nowhere, since no two characters share a location.

Main results:

- Theorem `Utf8.width_eq_length_iff`: a text takes as many bytes as it has characters
  exactly when it is ASCII.
- Theorem `exists_standsAt_of_isIllegal`: an illegal lexeme stands at one stray character.
- Theorem `StandsAt.location?_eq_iff`: when a diagnostic points at its character.
- Theorem `diagnostics_point_at_illegal_iff`: the same for all diagnostics of a text.
-/

namespace MonkeyTokens

/-! ## Bytes and characters -/

/-- Holds of the characters of ASCII. -/
def IsAscii (c : Char) : Prop :=
  c.toNat < 128

instance (c : Char) : Decidable (IsAscii c) :=
  inferInstanceAs (Decidable (_ < _))

theorem utf8Size_eq_one_iff {c : Char} : c.utf8Size = 1 ↔ IsAscii c := by
  rw [Char.utf8Size_eq_one_iff, UInt32.le_iff_toNat_le]
  exact Nat.lt_succ_iff.symm

namespace Utf8

/-- A text takes as many bytes as it has characters exactly when it is ASCII. -/
theorem width_eq_length_iff {text : List Char} :
    width text = text.length ↔ ∀ c ∈ text, IsAscii c := by
  induction text with
  | nil => simp
  | cons c text ih =>
    have hpos := c.utf8Size_pos
    have hle := length_le_width text
    rw [List.forall_mem_cons, ← ih, ← utf8Size_eq_one_iff, width_cons, List.length_cons]
    omega

end Utf8

/-! ## Illegal lexemes -/

/-- A lexeme is made of the one stray character between two parts of a text. -/
structure StandsAt (source : String) (l : Lexeme) (before : List Char) (c : Char)
    (after : List Char) : Prop where
  source_eq : source.toList = before ++ c :: after
  isStray : IsStray c
  literal_eq : l.token.literal.toList = [c]
  start_eq : l.span.start = Utf8.width before
  stop_eq : l.span.stop = Utf8.width before + c.utf8Size

variable {source : String} {l : Lexeme} {before after : List Char} {c : Char}

/-- An illegal lexeme is not the end of the text. -/
theorem isEof_of_isIllegal (h : l.isIllegal = true) : l.isEof = false := by
  have hkind : l.token.kind = .illegal := beq_iff_eq.mp h
  rw [Lexeme.isEof, Token.isEof, hkind]
  rfl

/-- An illegal lexeme stands at one stray character. -/
theorem exists_standsAt_of_isIllegal (hl : l ∈ lexemes source) (h : l.isIllegal = true) :
    ∃ before c after, StandsAt source l before c after := by
  have hplaced := placed_of_mem_lexemes hl (isEof_of_isIllegal h)
  rcases Utf8.slice?_eq_some_iff.mp hplaced.literal_eq with
    ⟨before, after, hsource, hstart, hstop⟩
  have hfits := hplaced.fits
  rw [show l.token.kind = .illegal from beq_iff_eq.mp h] at hfits
  rcases hfits with ⟨c, hliteral, hstray⟩
  rw [hliteral] at hsource hstop
  refine ⟨before, c, after, ?_, hstray, hliteral, hstart.symm, ?_⟩
  · rw [hsource, List.append_assoc]
    rfl
  · rw [← hstop, hstart]
    simp

/-! ## Locations -/

/-- A diagnostic whose range is not beyond the text has the location of its start. -/
theorem Lexeme.location?_diagnostic (path : String) (hstart : l.span.start ≤ source.toList.length)
    (hstop : l.span.stop - 1 ≤ source.toList.length) :
    (l.diagnostic path source.toList).location? =
      some (Location.of source.toList l.span.start) := by
  rw [diagnostic, Location.ofRange?, if_neg (by omega)]

namespace StandsAt

/-- A diagnostic whose range is beyond the text has no location. -/
theorem location?_eq_none (h : StandsAt source l before c after) (path : String)
    (hbeyond : source.toList.length < l.span.start ∨ source.toList.length < l.span.stop - 1) :
    (l.diagnostic path source.toList).location? = none := by
  have hpos := c.utf8Size_pos
  have hstart := h.start_eq
  have hstop := h.stop_eq
  rw [Lexeme.diagnostic, Location.ofRange?, if_pos (by omega)]

/-- The character of a lexeme stands in front of the end of the text. -/
theorem length_before_lt (h : StandsAt source l before c after) :
    before.length < source.toList.length := by
  rw [h.source_eq, List.length_append, List.length_cons]
  omega

/-- A diagnostic that has a location points at its character exactly when only ASCII
comes before it. -/
theorem of_start_eq_iff (h : StandsAt source l before c after)
    (hstart : l.span.start ≤ source.toList.length) :
    Location.of source.toList l.span.start = Location.of source.toList before.length ↔
      ∀ x ∈ before, IsAscii x := by
  rw [Location.of_inj hstart (Nat.le_of_lt h.length_before_lt), h.start_eq,
    Utf8.width_eq_length_iff]

/-- A diagnostic points at its character exactly when only ASCII comes before it and the
last byte of the character, taken as an offset, is not beyond the text. -/
theorem location?_eq_iff (h : StandsAt source l before c after) (path : String) :
    (l.diagnostic path source.toList).location? =
        some (Location.of source.toList before.length) ↔
      (∀ x ∈ before, IsAscii x) ∧ l.span.stop - 1 ≤ source.toList.length := by
  constructor
  · intro hlocation
    by_cases hwithin : l.span.start ≤ source.toList.length ∧
        l.span.stop - 1 ≤ source.toList.length
    · rw [l.location?_diagnostic path hwithin.1 hwithin.2, Option.some_inj,
        h.of_start_eq_iff hwithin.1] at hlocation
      exact ⟨hlocation, hwithin.2⟩
    · rw [h.location?_eq_none path (by omega)] at hlocation
      cases hlocation
  · intro hcond
    rcases hcond with ⟨hascii, hstop⟩
    have hstart : l.span.start ≤ source.toList.length := by
      rw [h.start_eq, Utf8.width_eq_length_iff.mpr hascii]
      exact Nat.le_of_lt h.length_before_lt
    rw [l.location?_diagnostic path hstart hstop, (h.of_start_eq_iff hstart).mpr hascii]

/-- A diagnostic that does not point at its character points nowhere or at the place of
another offset. -/
theorem location?_elsewhere (h : StandsAt source l before c after) (path : String)
    (hnot : ¬ ((∀ x ∈ before, IsAscii x) ∧ l.span.stop - 1 ≤ source.toList.length)) :
    (l.diagnostic path source.toList).location? = none ∨
      ∃ offset ≤ source.toList.length, offset ≠ before.length ∧
        (l.diagnostic path source.toList).location? =
          some (Location.of source.toList offset) ∧
        Location.of source.toList offset ≠ Location.of source.toList before.length := by
  by_cases hwithin : l.span.start ≤ source.toList.length ∧
      l.span.stop - 1 ≤ source.toList.length
  · right
    have hlocation := l.location?_diagnostic path hwithin.1 hwithin.2
    have hother : Location.of source.toList l.span.start ≠
        Location.of source.toList before.length := by
      intro heq
      rw [heq] at hlocation
      exact hnot ((h.location?_eq_iff path).mp hlocation)
    refine ⟨l.span.start, hwithin.1, ?_, hlocation, hother⟩
    intro heq
    exact hother (congrArg (Location.of source.toList) heq)
  · left
    exact h.location?_eq_none path (by omega)

end StandsAt

/-- A text has one diagnostic for each illegal lexeme.  It points at the character of
the lexeme exactly when only ASCII comes before it and the last byte of the character,
taken as an offset, is not beyond the text; else it points elsewhere or nowhere. -/
theorem diagnostics_point_at_illegal_iff (source : String) :
    (∀ path showSpans,
      (Script.run (.ofRoom? none) path source showSpans).diagnostics =
        ((lexemes source).filter Lexeme.isIllegal).map
          (Lexeme.diagnostic path source.toList)) ∧
      diagnose unnamedPath source (lexemes source) =
        ((lexemes source).filter Lexeme.isIllegal).map
          (Lexeme.diagnostic unnamedPath source.toList) ∧
      ∀ l ∈ lexemes source, l.isIllegal = true →
        ∃ before c after, StandsAt source l before c after ∧
          ∀ path,
            ((l.diagnostic path source.toList).location? =
                some (Location.of source.toList before.length) ↔
              (∀ x ∈ before, IsAscii x) ∧ l.span.stop - 1 ≤ source.toList.length) ∧
            (¬ ((∀ x ∈ before, IsAscii x) ∧ l.span.stop - 1 ≤ source.toList.length) →
              (l.diagnostic path source.toList).location? = none ∨
                ∃ offset ≤ source.toList.length, offset ≠ before.length ∧
                  (l.diagnostic path source.toList).location? =
                    some (Location.of source.toList offset) ∧
                  Location.of source.toList offset ≠
                    Location.of source.toList before.length) := by
  refine ⟨fun path => Script.diagnostics_run_unbounded path source, rfl, ?_⟩
  intro l hl hillegal
  rcases exists_standsAt_of_isIllegal hl hillegal with ⟨before, c, after, h⟩
  refine ⟨before, c, after, h, ?_⟩
  intro path
  exact ⟨h.location?_eq_iff path, h.location?_elsewhere path⟩

/-- Behind a character of two bytes, a diagnostic about the second character of a text
does not point at it, but at the end of the text. -/
theorem diagnostic_behind_wide_character :
    ⟨⟨.illegal, "@"⟩, ⟨2, 3, 1⟩⟩ ∈ lexemes "é@" ∧
      Lexeme.isIllegal ⟨⟨.illegal, "@"⟩, ⟨2, 3, 1⟩⟩ = true ∧
      ∃ before c after, StandsAt "é@" ⟨⟨.illegal, "@"⟩, ⟨2, 3, 1⟩⟩ before c after ∧
        (Lexeme.diagnostic "a.mk" "é@".toList ⟨⟨.illegal, "@"⟩, ⟨2, 3, 1⟩⟩).location? ≠
          some (Location.of "é@".toList before.length) := by
  have hmem : ⟨⟨.illegal, "@"⟩, ⟨2, 3, 1⟩⟩ ∈ lexemes "é@" := by
    rw [lexemes, Cursor.lexemes_eq, Cursor.lexemes_eq]
    decide
  have hillegal : Lexeme.isIllegal ⟨⟨.illegal, "@"⟩, ⟨2, 3, 1⟩⟩ = true := rfl
  rcases (diagnostics_point_at_illegal_iff "é@").2.2 _ hmem hillegal with
    ⟨before, c, after, h, hpath⟩
  refine ⟨hmem, hillegal, before, c, after, h, ?_⟩
  rw [ne_eq, (hpath "a.mk").1]
  intro hcond
  have hsplit : before = ['é'] := (Utf8.append_inj_of_width_eq (b := c :: after) (d := ['@'])
    h.source_eq.symm h.start_eq.symm).1
  exact absurd (hcond.1 'é' (by rw [hsplit]; exact List.mem_cons_self)) (by decide)

end MonkeyTokens
