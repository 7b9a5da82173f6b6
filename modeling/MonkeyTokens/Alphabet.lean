import MonkeyTokens.Symbol

/-!
# Character classes

Every character is of exactly one class, and the class of the character at which
a lexeme begins decides how the lexeme continues.  Letters and digits are those
of ASCII alone: a letter of any other script is foreign.

Main results:

- Theorem `isBlank_iff`: the blanks are space, tab, line feed and carriage return.
- Theorem `isWordChar_iff`: words are made of ASCII letters and underscores.
- Theorem `isDigitChar_iff`: numbers are made of ASCII digits.
- Theorem `CharClass.of_eq_symbol_iff`: the symbol class holds the characters
  that spell a symbol.
- Theorem `isForeign_iff`: every other character is foreign.
-/

namespace MonkeyTokens

/-- The class of a character. -/
inductive CharClass where
  | blank
  | word
  | digit
  | symbol
  | foreign
  deriving DecidableEq, Repr

/-- The characters that separate lexemes and belong to none. -/
def blankChars : List Char :=
  [' ', '\t', '\n', '\r']

/-- The class of a character; no character fits two of the cases. -/
def CharClass.of (c : Char) : CharClass :=
  if c ∈ blankChars then .blank
  else if c.isAlpha || c == '_' then .word
  else if c.isDigit then .digit
  else if (Symbol.ofChar? c).isSome then .symbol
  else .foreign

/-- Holds of space, tab, line feed and carriage return. -/
def isBlank (c : Char) : Bool :=
  CharClass.of c == .blank

/-- Holds of the characters of words. -/
def isWordChar (c : Char) : Bool :=
  CharClass.of c == .word

/-- Holds of the characters of numbers. -/
def isDigitChar (c : Char) : Bool :=
  CharClass.of c == .digit

/-- Holds of the characters that no lexeme but an illegal one may contain. -/
def isForeign (c : Char) : Bool :=
  CharClass.of c == .foreign

/-! ## The classes in terms of characters -/

/-- No blank is a letter, an underscore or a digit. -/
theorem not_word_or_digit_of_mem_blankChars {c : Char} (h : c ∈ blankChars) :
    (c.isAlpha || c == '_') = false ∧ c.isDigit = false := by
  simp only [blankChars, List.mem_cons, List.not_mem_nil, or_false] at h
  rcases h with rfl | rfl | rfl | rfl <;> decide

/-- Letters come after all digits. -/
theorem toNat_ge_of_isAlpha {c : Char} (h : c.isAlpha = true) : 'A'.toNat ≤ c.toNat := by
  have hcases : (decide ('A'.val ≤ c.val ∧ c.val ≤ 'Z'.val) ||
      (decide ('a'.val ≤ c.val) && decide (c.val ≤ 'z'.val))) = true := h
  rw [Bool.or_eq_true, Bool.and_eq_true, decide_eq_true_eq, decide_eq_true_eq] at hcases
  rcases hcases with hupper | hlower
  · exact UInt32.le_iff_toNat_le.mp hupper.1
  · have hfirst : 'a'.toNat ≤ c.toNat := UInt32.le_iff_toNat_le.mp hlower.1
    exact Nat.le_trans (by decide) hfirst

/-- No letter or underscore is a digit. -/
theorem not_digit_of_word {c : Char} (h : (c.isAlpha || c == '_') = true) :
    c.isDigit = false := by
  rw [Bool.eq_false_iff]
  intro hdigit
  have hle := (Char.isDigit_iff_toNat.mp hdigit).2
  rw [Bool.or_eq_true, beq_iff_eq] at h
  rcases h with halpha | rfl
  · exact absurd (Nat.le_trans (toNat_ge_of_isAlpha halpha) hle) (by decide)
  · exact absurd hle (by decide)

/-- No character that spells a symbol is a blank, a letter, an underscore or a digit. -/
theorem not_other_of_isSome_ofChar? {c : Char} (h : (Symbol.ofChar? c).isSome = true) :
    c ∉ blankChars ∧ (c.isAlpha || c == '_') = false ∧ c.isDigit = false := by
  unfold Symbol.ofChar? at h
  split at h
  case h_15 => simp at h
  all_goals decide

/-- The blanks are space, tab, line feed and carriage return. -/
theorem isBlank_iff {c : Char} :
    isBlank c = true ↔ c ∈ blankChars := by
  grind [isBlank, CharClass.of]

/-- Words are made of ASCII letters and underscores. -/
theorem isWordChar_iff {c : Char} :
    isWordChar c = true ↔ (c.isAlpha || c == '_') = true := by
  grind [isWordChar, CharClass.of, not_word_or_digit_of_mem_blankChars]

/-- Numbers are made of ASCII digits. -/
theorem isDigitChar_iff {c : Char} :
    isDigitChar c = true ↔ c.isDigit = true := by
  grind [isDigitChar, CharClass.of, not_word_or_digit_of_mem_blankChars, not_digit_of_word]

/-- The symbol class holds the characters that spell a symbol. -/
theorem CharClass.of_eq_symbol_iff {c : Char} :
    CharClass.of c = .symbol ↔ (Symbol.ofChar? c).isSome = true := by
  grind [CharClass.of, not_other_of_isSome_ofChar?]

/-- The foreign characters are those of none of the other classes. -/
theorem isForeign_iff {c : Char} :
    isForeign c = true ↔
      isBlank c = false ∧ isWordChar c = false ∧ isDigitChar c = false ∧
        Symbol.ofChar? c = none := by
  rw [← Option.not_isSome_iff_eq_none]
  grind [isForeign, isBlank, isWordChar, isDigitChar, CharClass.of, not_other_of_isSome_ofChar?]

end MonkeyTokens
