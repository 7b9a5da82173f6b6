import MonkeyTokens.Munch

/-!
# The lexicon

Which literals go with which kind, and which character, standing right behind a
lexeme, would have belonged to it.  Both are said character by character, without
taking any text apart.

Main results:

- Theorem `Kind.Fits.charClass_eq`: the characters of a literal are all of the class
  that its kind asks for.
- Theorem `Kind.Fits.extends_iff_merges`: the first character of a literal extends
  the lexeme before it exactly when the two kinds merge.
- Theorem `Kind.not_extends_of_mem_blankChars`: a blank extends no lexeme.
-/

namespace MonkeyTokens

/-! ## Characters -/

/-- The characters that are symbols or begin one. -/
def symbolChars : List Char :=
  ['=', '!', ';', '(', ')', ',', '+', '\x7b', '\x7d', '-', '/', '*', '<', '>']

/-- Holds of ASCII letters and of the underscore. -/
def isLetter (c : Char) : Bool :=
  c.isAlpha || c == '_'

/-- Holds of the characters that stand in no lexeme but an illegal one. -/
def IsStray (c : Char) : Prop :=
  c ∉ blankChars ∧ isLetter c = false ∧ c.isDigit = false ∧ c ∉ symbolChars

instance (c : Char) : Decidable (IsStray c) :=
  inferInstanceAs (Decidable (_ ∧ _ ∧ _ ∧ _))

/-- The characters of the symbol class are those listed. -/
theorem isSome_ofChar?_iff {c : Char} :
    (Symbol.ofChar? c).isSome = true ↔ c ∈ symbolChars := by
  constructor
  · intro h
    unfold Symbol.ofChar? at h
    split at h
    case h_15 => simp at h
    all_goals decide
  · intro h
    simp only [symbolChars, List.mem_cons, List.not_mem_nil, or_false] at h
    rcases h with rfl | rfl | rfl | rfl | rfl | rfl | rfl | rfl | rfl | rfl | rfl | rfl | rfl | rfl
    all_goals rfl

theorem CharClass.of_eq_blank_iff {c : Char} : CharClass.of c = .blank ↔ c ∈ blankChars := by
  rw [← isBlank_iff, isBlank, beq_iff_eq]

theorem CharClass.of_eq_word_iff {c : Char} : CharClass.of c = .word ↔ isLetter c = true := by
  rw [isLetter, ← isWordChar_iff, isWordChar, beq_iff_eq]

theorem CharClass.of_eq_digit_iff {c : Char} : CharClass.of c = .digit ↔ c.isDigit = true := by
  rw [← isDigitChar_iff, isDigitChar, beq_iff_eq]

theorem CharClass.of_eq_symbol_iff_mem {c : Char} :
    CharClass.of c = .symbol ↔ c ∈ symbolChars := by
  rw [CharClass.of_eq_symbol_iff, isSome_ofChar?_iff]

/-- The stray characters are those of none of the other classes. -/
theorem CharClass.of_eq_foreign_iff {c : Char} : CharClass.of c = .foreign ↔ IsStray c := by
  rw [IsStray, ← CharClass.of_eq_blank_iff, ← CharClass.of_eq_symbol_iff_mem,
    Bool.eq_false_iff, Bool.eq_false_iff, ne_eq, ne_eq, ← CharClass.of_eq_word_iff,
    ← CharClass.of_eq_digit_iff]
  cases CharClass.of c <;> simp

/-- Word characters are letters. -/
theorem isWordChar_eq (c : Char) : isWordChar c = isLetter c := by
  rw [Bool.eq_iff_iff, isWordChar_iff, isLetter]

/-- Characters of numbers are digits. -/
theorem isDigitChar_eq (c : Char) : isDigitChar c = c.isDigit := by
  rw [Bool.eq_iff_iff, isDigitChar_iff]

/-! ## Literals and kinds -/

namespace Kind

/-- Holds of names and keywords. -/
def isWord : Kind → Bool
  | ident | keyword _ => true
  | _ => false

/-- The literals that a kind may have.  Nothing fits the end of the text. -/
def Fits : Kind → List Char → Prop
  | eof, _ => False
  | illegal, text => ∃ c, text = [c] ∧ IsStray c
  | int, text => text ≠ [] ∧ ∀ c ∈ text, c.isDigit = true
  | symbol s, text => text = s.text.toList
  | ident, text =>
    text ≠ [] ∧ (∀ c ∈ text, isLetter c = true) ∧ ofWord (String.ofList text) = ident
  | keyword k, text =>
    text ≠ [] ∧ (∀ c ∈ text, isLetter c = true) ∧ ofWord (String.ofList text) = keyword k

/-- The characters that a lexeme of some kind would have taken, had they come next. -/
def Extends : Kind → Char → Prop
  | ident, c | keyword _, c => isLetter c = true
  | int, c => c.isDigit = true
  | symbol .assign, c | symbol .bang, c => c = '='
  | _, _ => False

/-- The kinds that cannot stand side by side with nothing in between. -/
def Merges (k next : Kind) : Prop :=
  (k.isWord = true ∧ next.isWord = true) ∨ (k = int ∧ next = int) ∨
    ((k = symbol .assign ∨ k = symbol .bang) ∧
      (next = symbol .assign ∨ next = symbol .equal))

/-! ## What fits a kind -/

/-- The class of the characters in the literals of a kind. -/
def charClass : Kind → CharClass
  | eof => .blank
  | illegal => .foreign
  | int => .digit
  | symbol _ => .symbol
  | ident | keyword _ => .word

/-- The kind of every word is that of a name or a keyword. -/
theorem isWord_ofWord (word : String) : (ofWord word).isWord = true := by
  unfold ofWord
  split <;> rfl

theorem fits_iff_of_isWord {k : Kind} {text : List Char} (h : k.isWord = true) :
    k.Fits text ↔
      text ≠ [] ∧ (∀ c ∈ text, isLetter c = true) ∧ ofWord (String.ofList text) = k := by
  cases k with
  | ident | keyword k => rfl
  | illegal | eof | int | symbol s => cases h

theorem extends_iff_of_isWord {k : Kind} {c : Char} (h : k.isWord = true) :
    k.Extends c ↔ isLetter c = true := by
  cases k with
  | ident | keyword k => rfl
  | illegal | eof | int | symbol s => cases h

/-- A symbol is extended by an equals sign that it can be joined with. -/
theorem extends_symbol_iff {s : Symbol} {c : Char} :
    (symbol s).Extends c ↔ s.joined?.isSome = true ∧ c = '=' := by
  cases s <;> simp [Extends, Symbol.joined?]

/-- A lexeme is extended by a letter, a digit or an equals sign, depending on its kind. -/
theorem extends_iff {k : Kind} {c : Char} :
    k.Extends c ↔
      (k.isWord = true ∧ isLetter c = true) ∨ (k = int ∧ c.isDigit = true) ∨
        ((k = symbol .assign ∨ k = symbol .bang) ∧ c = '=') := by
  cases k with
  | ident | keyword k => simp [Extends, isWord]
  | int => simp [Extends, isWord]
  | illegal | eof => simp [Extends, isWord]
  | symbol s => cases s <;> simp [Extends, isWord]

/-- A literal that fits a kind has at least one character. -/
theorem Fits.ne_nil {k : Kind} {text : List Char} (h : k.Fits text) : text ≠ [] := by
  cases k with
  | eof => exact h.elim
  | illegal =>
    rcases h with ⟨c, rfl, -⟩
    simp
  | symbol s =>
    subst h
    cases s <;> decide
  | int | ident | keyword k => exact h.1

/-- The kind of a literal is not that of the end. -/
theorem Fits.ne_eof {k : Kind} {text : List Char} (h : k.Fits text) : k ≠ eof := by
  intro h
  subst h
  exact h

/-- The spelling of a symbol is made of symbol characters. -/
theorem mem_symbolChars_of_mem_text {s : Symbol} :
    ∀ c ∈ s.text.toList, c ∈ symbolChars := by
  cases s <;> simp [Symbol.text, symbolChars]

/-- All characters of a literal are of the class that its kind asks for. -/
theorem Fits.charClass_eq {k : Kind} {text : List Char} {c : Char}
    (h : k.Fits text) (hc : c ∈ text) : CharClass.of c = k.charClass := by
  cases k with
  | eof => exact h.elim
  | illegal =>
    rcases h with ⟨x, rfl, hx⟩
    rw [List.mem_singleton] at hc
    subst hc
    exact CharClass.of_eq_foreign_iff.mpr hx
  | int => exact CharClass.of_eq_digit_iff.mpr (h.2 c hc)
  | symbol s =>
    subst h
    exact CharClass.of_eq_symbol_iff_mem.mpr (mem_symbolChars_of_mem_text c hc)
  | ident | keyword k => exact CharClass.of_eq_word_iff.mpr (h.2.1 c hc)

/-- No literal holds a blank. -/
theorem Fits.not_mem_blankChars {k : Kind} {text : List Char} {c : Char}
    (h : k.Fits text) (hc : c ∈ text) : c ∉ blankChars := by
  rw [← CharClass.of_eq_blank_iff, h.charClass_eq hc]
  cases k <;> simp [charClass]
  exact h.elim

/-- The letters in literals are those of words. -/
theorem Fits.isLetter_iff {k : Kind} {text : List Char} {c : Char}
    (h : k.Fits text) (hc : c ∈ text) : isLetter c = true ↔ k.isWord = true := by
  rw [← CharClass.of_eq_word_iff, h.charClass_eq hc]
  cases k <;> simp [charClass, isWord]

/-- The digits in literals are those of numbers. -/
theorem Fits.isDigit_iff {k : Kind} {text : List Char} {c : Char}
    (h : k.Fits text) (hc : c ∈ text) : c.isDigit = true ↔ k = int := by
  rw [← CharClass.of_eq_digit_iff, h.charClass_eq hc]
  cases k <;> simp [charClass]

/-- The literals that begin with an equals sign are those of two symbols. -/
theorem Fits.eq_equals_iff {k : Kind} {text : List Char} {c : Char}
    (h : k.Fits (c :: text)) : c = '=' ↔ k = symbol .assign ∨ k = symbol .equal := by
  have hclass := h.charClass_eq List.mem_cons_self
  cases k with
  | symbol s =>
    have hhead : s.text.toList.head? = some c := congrArg List.head? (Eq.symm h)
    rw [← Option.some_inj, ← hhead]
    cases s <;> decide
  | eof => exact h.elim
  | illegal | int | ident | keyword k =>
    have hne : c ≠ '=' := by
      intro hc
      subst hc
      exact absurd hclass (by simp only [charClass]; decide)
    simp [hne]

/-- The first character of a literal extends the lexeme right before it exactly when
the two kinds merge. -/
theorem Fits.extends_iff_merges {k next : Kind} {c : Char} {text : List Char}
    (h : next.Fits (c :: text)) : k.Extends c ↔ k.Merges next := by
  have hletter := h.isLetter_iff List.mem_cons_self
  have hdigit := h.isDigit_iff List.mem_cons_self
  have hequals := h.eq_equals_iff
  cases k with
  | ident | keyword k => simp [Extends, Merges, isWord, hletter]
  | int => simp [Extends, Merges, isWord, hdigit]
  | illegal | eof => simp [Extends, Merges, isWord]
  | symbol s => cases s <;> simp [Extends, Merges, isWord, hequals]

/-- A blank extends no lexeme. -/
theorem not_extends_of_mem_blankChars {k : Kind} {c : Char} (hc : c ∈ blankChars) :
    ¬ k.Extends c := by
  have hclass := CharClass.of_eq_blank_iff.mpr hc
  cases k with
  | ident | keyword k =>
    intro h
    rw [CharClass.of_eq_word_iff.mpr h] at hclass
    cases hclass
  | int =>
    intro h
    rw [CharClass.of_eq_digit_iff.mpr h] at hclass
    cases hclass
  | illegal | eof => exact id
  | symbol s =>
    rw [extends_symbol_iff]
    intro h
    rcases h with ⟨-, rfl⟩
    revert hc
    decide

end Kind

end MonkeyTokens
