import MonkeyTokens.Lexeme
import MonkeyTokens.Munch
import MonkeyTokens.Utf8

/-!
# Cursors

A cursor stands between two characters of a text.  It holds the characters not
yet read, how many bytes were read, and the line it is on.  Reading a lexeme
skips blanks, takes the longest lexeme and leaves the cursor right behind it; at
the end of the text it gives the end lexeme, as often as it is asked.

Main results:

- Theorem `Cursor.length_rest_next_lt`: a lexeme other than the end shortens what
  is left to read.
- Theorem `Cursor.lexemes_eq`: the lexemes from a cursor are the next one and,
  unless it is the end, those from the cursor behind it.
-/

namespace MonkeyTokens

/-- A place in a text, with the characters that are still to be read. -/
structure Cursor where
  rest : List Char
  offset : Nat
  line : Nat
  deriving DecidableEq, Repr

namespace Cursor

/-- The cursor at the start of a text. -/
def atStart (source : String) : Cursor where
  rest := source.toList
  offset := 0
  line := 1

/-- The cursor behind `text`, with `rest` still to be read.  Each line feed that
is passed begins a new line. -/
def pass (c : Cursor) (text rest : List Char) : Cursor where
  rest := rest
  offset := c.offset + Utf8.width text
  line := c.line + text.count '\n'

/-- The cursor behind the blanks that come next. -/
def skipBlanks (c : Cursor) : Cursor :=
  c.pass (c.rest.takeWhile isBlank) (c.rest.dropWhile isBlank)

/-- The lexeme at a cursor that stands before no blank, and the cursor behind it. -/
def read (c : Cursor) : Lexeme × Cursor :=
  match c.rest with
  | [] => (⟨.endOfText, ⟨c.offset, c.offset, c.line⟩⟩, c)
  | first :: after =>
    let m := munch first after
    let behind := c.pass m.text m.rest
    (⟨⟨m.kind, String.ofList m.text⟩, ⟨c.offset, behind.offset, c.line⟩⟩, behind)

/-- The next lexeme, and the cursor behind it. -/
def next (c : Cursor) : Lexeme × Cursor :=
  c.skipBlanks.read

/-! ## Progress -/

/-- Skipping blanks does not add to what is left to read. -/
theorem length_rest_skipBlanks_le (c : Cursor) :
    c.skipBlanks.rest.length ≤ c.rest.length :=
  (List.dropWhile_sublist isBlank).length_le

/-- Reading a lexeme other than the end shortens what is left to read. -/
theorem length_rest_read_lt (c : Cursor) (h : c.read.1.isEof = false) :
    c.read.2.rest.length < c.rest.length := by
  unfold read at h ⊢
  split
  · rename_i hrest
    simp [hrest, Lexeme.isEof, Token.isEof, Token.endOfText] at h
  · rename_i first after hrest
    rw [hrest]
    exact munch_rest_length_lt first after

/-- A lexeme other than the end shortens what is left to read. -/
theorem length_rest_next_lt (c : Cursor) (h : c.next.1.isEof = false) :
    c.next.2.rest.length < c.rest.length :=
  Nat.lt_of_lt_of_le (length_rest_read_lt c.skipBlanks h) (length_rest_skipBlanks_le c)

/-- The lexemes from a cursor on, the end included. -/
def lexemes (c : Cursor) : List Lexeme :=
  if h : c.next.1.isEof = true then
    [c.next.1]
  else
    have := length_rest_next_lt c (Bool.eq_false_iff.mpr h)
    c.next.1 :: c.next.2.lexemes
termination_by c.rest.length

/-- The lexemes from a cursor are the next one and, unless it is the end, those
from the cursor behind it. -/
theorem lexemes_eq (c : Cursor) :
    c.lexemes = c.next.1 :: if c.next.1.isEof then [] else c.next.2.lexemes := by
  rw [lexemes]
  split <;> simp_all

end Cursor

/-- The lexemes of a text in order; the last one is its end. -/
def lexemes (source : String) : List Lexeme :=
  (Cursor.atStart source).lexemes

/-- The tokens of a text in order; the last one is its end. -/
def tokenize (source : String) : List Token :=
  (lexemes source).map Lexeme.token

end MonkeyTokens
