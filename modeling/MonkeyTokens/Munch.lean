import MonkeyTokens.Token

/-!
# Maximal munch

The longest lexeme at the front of a text.  Its first character decides its kind:
a word character starts the longest word, a digit the longest number, a symbol
takes an equals sign that follows it if the two spell a symbol together, and a
foreign character stands alone as an illegal lexeme.

Main results:

- Theorem `munch_text_append_rest`: a munch splits the text and loses nothing.
- Theorem `munch_text_ne_nil`: a munch takes at least one character.
-/

namespace MonkeyTokens

/-- A lexeme split off the front of a text: its kind, its characters, and the
characters after it. -/
structure Munch where
  kind : Kind
  text : List Char
  rest : List Char
  deriving DecidableEq, Repr

/-- The lexeme that the character of a symbol begins: an equals sign that follows
is taken if the two spell a symbol together. -/
def munchSymbol (s : Symbol) (first : Char) : List Char → Munch
  | '=' :: after =>
    match s.joined? with
    | some t => ⟨.symbol t, [first, '='], after⟩
    | none => ⟨.symbol s, [first], '=' :: after⟩
  | after => ⟨.symbol s, [first], after⟩

/-- The longest lexeme of a text that begins with `first` and goes on with `after`.
The first character is not a blank. -/
def munch (first : Char) (after : List Char) : Munch :=
  if isWordChar first then
    let word := first :: after.takeWhile isWordChar
    ⟨.ofWord (String.ofList word), word, after.dropWhile isWordChar⟩
  else if isDigitChar first then
    ⟨.int, first :: after.takeWhile isDigitChar, after.dropWhile isDigitChar⟩
  else
    match Symbol.ofChar? first with
    | some s => munchSymbol s first after
    | none => ⟨.illegal, [first], after⟩

/-! ## What a munch takes -/

/-- The lexeme of a symbol splits the text and loses nothing. -/
theorem munchSymbol_text_append_rest (s : Symbol) (first : Char) (after : List Char) :
    (munchSymbol s first after).text ++ (munchSymbol s first after).rest = first :: after := by
  unfold munchSymbol
  split
  · split <;> rfl
  · rfl

/-- A munch splits the text and loses nothing. -/
theorem munch_text_append_rest (first : Char) (after : List Char) :
    (munch first after).text ++ (munch first after).rest = first :: after := by
  unfold munch
  split
  · simp [List.takeWhile_append_dropWhile]
  · split
    · simp [List.takeWhile_append_dropWhile]
    · split
      · exact munchSymbol_text_append_rest ..
      · rfl

/-- A munch takes at least one character. -/
theorem munch_text_ne_nil (first : Char) (after : List Char) :
    (munch first after).text ≠ [] := by
  unfold munch
  split
  · simp
  · split
    · simp
    · split
      · unfold munchSymbol
        split
        · split <;> simp
        · simp
      · simp

/-- A munch leaves less than it was given. -/
theorem munch_rest_length_lt (first : Char) (after : List Char) :
    (munch first after).rest.length < (first :: after).length := by
  have hsplit := congrArg List.length (munch_text_append_rest first after)
  have hpos := List.length_pos_iff.mpr (munch_text_ne_nil first after)
  rw [List.length_append] at hsplit
  omega

end MonkeyTokens
