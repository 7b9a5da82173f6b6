import MonkeyTokens.Token

/-!
# Lexemes

A lexeme is a token at a place of its text.  The place is a range of bytes of the
text in UTF-8 and the number of the line on which the range begins.
-/

namespace MonkeyTokens

/-- A range of bytes, from `start` up to but not including `stop`, that begins on
the given line.  Lines are counted from one. -/
structure Span where
  start : Nat
  stop : Nat
  line : Nat
  deriving DecidableEq, Repr

/-- The form of a span in a listing, with decimal numbers. -/
def Span.render (s : Span) : String :=
  s.start.repr ++ ".." ++ s.stop.repr ++ "@" ++ s.line.repr

/-- The pieces in which the form of a span is written. -/
def Span.pieces (s : Span) : List String :=
  [s.start.repr, "..", s.stop.repr, "@", s.line.repr]

theorem Span.join_pieces (s : Span) : String.join s.pieces = s.render := by
  simp [pieces, render, String.append_assoc]

/-- A token with the place where it was read. -/
structure Lexeme where
  token : Token
  span : Span
  deriving DecidableEq, Repr

namespace Lexeme

/-- Holds of the lexemes whose token is the end of the text. -/
def isEof (l : Lexeme) : Bool :=
  l.token.isEof

/-- Holds of the lexemes whose token is illegal. -/
def isIllegal (l : Lexeme) : Bool :=
  l.token.isIllegal

end Lexeme

end MonkeyTokens
