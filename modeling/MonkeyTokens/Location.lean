/-!
# Locations

A location is a line and a column of a text, both counted from one, a column to
every character.  A line ends after a carriage return with a line feed, after
either of them alone, after a vertical tab, a form feed, a next-line character, a
line separator or a paragraph separator.  No line begins at the very end of the
text.

Ranges are given as offsets of characters.  A range has no location if it starts
or, being nonempty, has its last element beyond the end of the text.

Main results:

- Theorem `Location.of_succ`: the location of the next character, from the one before.
-/

namespace MonkeyTokens

/-- A line and a column of a text. -/
structure Location where
  line : Nat
  column : Nat
  deriving DecidableEq, Repr

/-- The characters that end a line. -/
def lineEnds : List Char :=
  ['\n', '\r', '\x0b', '\x0c', '\u0085', '\u2028', '\u2029']

/-- Holds if a line ends between a character and the text that follows it: a
carriage return leaves this to the line feed after it, and nothing ends before the
end of the text. -/
def endsLine (c : Char) : List Char → Bool
  | [] => false
  | next :: _ => lineEnds.contains c && !(c == '\r' && next == '\n')

namespace Location

/-- The location after a character, in front of the text that follows it. -/
def step (l : Location) (c : Char) (after : List Char) : Location :=
  if endsLine c after then ⟨l.line + 1, 1⟩ else ⟨l.line, l.column + 1⟩

/-- The location that is `offset` characters behind the location `l` of the start
of `text`. -/
def advance (l : Location) : List Char → Nat → Location
  | c :: after, offset + 1 => (l.step c after).advance after offset
  | _, _ => l

/-- The location of the character with the given offset, or of the end of the text. -/
def of (text : List Char) (offset : Nat) : Location :=
  advance ⟨1, 1⟩ text offset

/-- The location of a range of characters, if it has one. -/
def ofRange? (text : List Char) (start stop : Nat) : Option Location :=
  if start > text.length ∨ (start < stop ∧ stop - 1 > text.length) then none
  else some (of text start)

/-- The form of a location behind the name of its text. -/
def render (l : Location) : String :=
  l.line.repr ++ ":" ++ l.column.repr

/-! ## Walking through a text -/

/-- Advancing over a part of a text leads to where the next part begins. -/
theorem advance_succ (l : Location) (before : List Char) (c : Char) (after : List Char) :
    l.advance (before ++ c :: after) (before.length + 1) =
      (l.advance (before ++ c :: after) before.length).step c after := by
  induction before generalizing l with
  | nil => cases after <;> rfl
  | cons b before ih => exact ih (l.step b (before ++ c :: after))

/-- The location of the next character, from the one before. -/
theorem of_succ (before : List Char) (c : Char) (after : List Char) :
    of (before ++ c :: after) (before.length + 1) =
      (of (before ++ c :: after) before.length).step c after :=
  advance_succ ..

end Location

end MonkeyTokens
