import MonkeyTokens.Cursor

/-!
# Scanners

A scanner is a cursor that is read in two ways.  Asked directly, by `nextLexeme`
or `nextToken`, it answers for ever and repeats the end of its text.  Read as a
sequence, by `next?`, `nth` or `take`, it yields the end once and is finished
from then on.  Both ways move the same cursor, and only the second one marks the
scanner as finished.

Main results:

- Theorem `Scanner.drain_ofSource`: draining a new scanner gives the lexemes of its text.
-/

namespace MonkeyTokens

/-- A cursor, and whether the sequence of its lexemes has ended. -/
structure Scanner where
  cursor : Cursor
  finished : Bool
  deriving DecidableEq, Repr

namespace Scanner

/-- A scanner at the start of a text. -/
def ofSource (source : String) : Scanner where
  cursor := .atStart source
  finished := false

/-! ## What a scanner shows -/

/-- The number of bytes before the character at which the scanner stands. -/
def position (s : Scanner) : Nat :=
  s.cursor.offset

/-- The character at which the scanner stands; there is none at the end. -/
def current? (s : Scanner) : Option Char :=
  s.cursor.rest.head?

/-- The number of bytes up to the character after the current one.  The end of the
text counts as one byte wide. -/
def readPosition (s : Scanner) : Nat :=
  match s.current? with
  | some c => s.position + c.utf8Size
  | none => s.position + 1

/-- The line of the current character. -/
def line (s : Scanner) : Nat :=
  s.cursor.line

/-! ## Asking for lexemes -/

/-- The next lexeme; at the end of the text, its end again. -/
def nextLexeme (s : Scanner) : Lexeme × Scanner :=
  let (lexeme, cursor) := s.cursor.next
  (lexeme, { s with cursor })

/-- The token of the next lexeme. -/
def nextToken (s : Scanner) : Token × Scanner :=
  let (lexeme, s) := s.nextLexeme
  (lexeme.token, s)

/-! ## Reading the lexemes as a sequence -/

/-- The next element of the sequence of lexemes, whose last element is the end of
the text. -/
def next? (s : Scanner) : Option Lexeme × Scanner :=
  if s.finished then
    (none, s)
  else
    let (lexeme, s) := s.nextLexeme
    (some lexeme, { s with finished := lexeme.isEof })

/-- The element of the sequence that `n` others precede.  The search stops where
the sequence ends. -/
def nth : Nat → Scanner → Option Lexeme × Scanner
  | 0, s => s.next?
  | n + 1, s =>
    match s.next? with
    | (none, s) => (none, s)
    | (some _, s) => nth n s

/-- The next `n` elements of the sequence, or all if there are fewer. -/
def take : Nat → Scanner → List Lexeme × Scanner
  | 0, s => ([], s)
  | n + 1, s =>
    match s.next? with
    | (none, s) => ([], s)
    | (some lexeme, s) =>
      let (lexemes, s) := take n s
      (lexeme :: lexemes, s)

/-- All elements of the sequence that are left. -/
def drain (s : Scanner) : List Lexeme :=
  if s.finished then [] else s.cursor.lexemes

/-- Draining a new scanner gives the lexemes of its text. -/
theorem drain_ofSource (source : String) :
    (ofSource source).drain = lexemes source :=
  rfl

end Scanner

end MonkeyTokens
