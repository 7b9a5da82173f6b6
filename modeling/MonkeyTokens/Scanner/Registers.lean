import MonkeyTokens.Scanner
import MonkeyTokens.Utf8.Offset

/-!
# Scanners in registers

A scanner need not hold the text that is left to read.  It can keep the whole text and
five registers: the byte offset at which it stands, the offset of the character after
that, the character itself, the line, and whether the sequence of lexemes has ended.  It
moves by one character at a time and finds each at an offset that was computed before,
and it cuts a literal out of the text once it has passed over it.  Both could go wrong:
there is no character at an offset inside another, and nothing to cut between two such
offsets.

So reading a lexeme has a result only if its literal can be cut.

Main results:

- Theorem `Registers.remaining_advance_lt`: from whatever registers, a loop of moves ends.
-/

namespace MonkeyTokens

/-- A text, and where a scanner stands in it. -/
structure Registers where
  source : String
  position : Nat
  readPosition : Nat
  current? : Option Char
  line : Nat
  finished : Bool
  deriving DecidableEq, Repr

namespace Registers

/-! ## Moving -/

/-- The number of bytes by which to pass over a character; the end of the text counts
as one byte wide. -/
def stride : Option Char → Nat
  | some c => c.utf8Size
  | none => 1

/-- Moves by one character.  A new line begins behind a line feed. -/
def advance (r : Registers) : Registers :=
  let next? := Utf8.charAt? r.source r.readPosition
  { r with
    line := if r.current? = some '\n' then r.line + 1 else r.line
    position := r.readPosition
    current? := next?
    readPosition := r.readPosition + stride next? }

/-- The registers at the start of a text: the first move finds its first character. -/
def ofSource (source : String) : Registers :=
  advance
    { source
      position := 0
      readPosition := 0
      current? := none
      line := 1
      finished := false }

/-- The character after the current one. -/
def peek? (r : Registers) : Option Char :=
  Utf8.charAt? r.source r.readPosition

/-- Moves if the next character is the expected one, and says whether it is. -/
def expect (r : Registers) (expected : Char) : Bool × Registers :=
  if r.peek? = some expected then (true, r.advance) else (false, r)

/-- What is left to move over: nothing once there is no current character. -/
def remaining (r : Registers) : Nat :=
  if r.current?.isSome then Utf8.width r.source.toList - r.readPosition + 1 else 0

/-- A move off a character leaves less to move over, from whatever registers. -/
theorem remaining_advance_lt (r : Registers) (h : r.current?.isSome = true) :
    r.advance.remaining < r.remaining := by
  unfold remaining
  rw [if_pos h]
  cases hnext : Utf8.charAt? r.source r.readPosition with
  | none => simp [advance, hnext]
  | some c =>
    have hwithin := Utf8.add_utf8Size_le_of_charAt? hnext
    have hpos := c.utf8Size_pos
    simp only [advance, hnext, stride, Option.isSome_some, if_true]
    omega

/-- Moves as long as the current character is one of those asked for. -/
def advanceWhile (p : Char → Bool) (r : Registers) : Registers :=
  if h : r.current?.any p then
    have := remaining_advance_lt r (Option.isSome_of_any h)
    advanceWhile p r.advance
  else
    r
termination_by r.remaining

/-! ## Reading lexemes -/

/-- The lexeme from where `front` stands up to the position, and the registers.  There is
none if the two do not bound a part of the text. -/
def lexeme? (r : Registers) (kind : Kind) (front : Registers) : Option (Lexeme × Registers) :=
  (Utf8.slice? r.source front.position r.position).map fun literal =>
    (⟨⟨kind, literal⟩, ⟨front.position, r.position, front.line⟩⟩, r)

/-- The symbol that begins with the current character, which is `s` by itself, and the
registers at its last character. -/
def symbol (r : Registers) (s : Symbol) : Symbol × Registers :=
  match s.joined? with
  | some t =>
    match r.expect '=' with
    | (true, r) => (t, r)
    | (false, r) => (s, r)
  | none => (s, r)

/-- The lexeme at the current character, which is no blank, and the registers behind it.
Words and numbers are passed over by a loop, everything else by one last move. -/
def read? (front : Registers) : Option (Lexeme × Registers) :=
  match front.current? with
  | none =>
    let stop := Utf8.width front.source.toList
    some (⟨.endOfText, ⟨stop, stop, front.line⟩⟩, front)
  | some c =>
    match Symbol.ofChar? c with
    | some s =>
      let (kind, last) := front.symbol s
      last.advance.lexeme? (.symbol kind) front
    | none =>
      if isWordChar c then
        let behind := front.advanceWhile isWordChar
        (Utf8.slice? behind.source front.position behind.position).bind fun word =>
          behind.lexeme? (.ofWord word) front
      else if isDigitChar c then
        (front.advanceWhile isDigitChar).lexeme? .int front
      else
        front.advance.lexeme? .illegal front

/-- The next lexeme, and the registers behind it. -/
def nextLexeme? (r : Registers) : Option (Lexeme × Registers) :=
  (r.advanceWhile isBlank).read?

/-! ## Reading the lexemes as a sequence -/

/-- The next element of the sequence of lexemes, and the registers behind it. -/
def nextElement? (r : Registers) : Option (Option Lexeme × Registers) :=
  if r.finished then
    some (none, r)
  else
    r.nextLexeme?.map fun (l, r) => (some l, { r with finished := l.isEof })

/-- The element of the sequence that `n` others precede, if the sequence does not end
before it. -/
def nth? : Nat → Registers → Option (Option Lexeme × Registers)
  | 0, r => r.nextElement?
  | n + 1, r =>
    r.nextElement?.bind fun
      | (none, r) => some (none, r)
      | (some _, r) => nth? n r

/-- The next `n` elements of the sequence, or all if there are fewer. -/
def take? : Nat → Registers → Option (List Lexeme × Registers)
  | 0, r => some ([], r)
  | n + 1, r =>
    r.nextElement?.bind fun
      | (none, r) => some ([], r)
      | (some l, r) => (take? n r).map fun (later, r) => (l :: later, r)

end Registers

end MonkeyTokens
