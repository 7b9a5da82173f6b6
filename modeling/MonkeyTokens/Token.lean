import MonkeyTokens.Alphabet
import MonkeyTokens.Keyword

/-!
# Tokens

A token is a kind together with the literal text that was read.  The kind of a
symbol or a keyword fixes its literal; the kinds of names, numbers and illegal
characters leave it open; the end of the text has the empty literal.

Main results:

- Theorem `Token.join_pieces`: the pieces in which a token is written make up its form.
-/

namespace MonkeyTokens

/-- The kind of a token. -/
inductive Kind where
  | illegal
  | eof
  | ident
  | int
  | symbol (s : Symbol)
  | keyword (k : Keyword)
  deriving DecidableEq, Repr

namespace Kind

/-- The name of a kind in a listing: a symbol is its own name. -/
def name : Kind → String
  | illegal => "ILLEGAL"
  | eof => "EOF"
  | ident => "IDENT"
  | int => "INT"
  | symbol s => s.text
  | keyword k => k.name

/-- The kind of a word: a keyword if one is spelled like it, else a name. -/
def ofWord (word : String) : Kind :=
  match Keyword.ofSpelling? word with
  | some k => keyword k
  | none => ident

/-- Holds of the kinds of keywords. -/
def isKeyword : Kind → Bool
  | keyword _ => true
  | _ => false

end Kind

/-- A kind with the literal text that was read. -/
structure Token where
  kind : Kind
  literal : String
  deriving DecidableEq, Repr

namespace Token

/-- The token at the end of every text. -/
def endOfText : Token where
  kind := .eof
  literal := ""

/-- Holds of the tokens whose kind is the end of the text, whatever their literal. -/
def isEof (t : Token) : Bool :=
  t.kind == .eof

/-- Holds of the tokens whose kind is illegal. -/
def isIllegal (t : Token) : Bool :=
  t.kind == .illegal

/-- The form of a token in a listing. -/
def render (t : Token) : String :=
  "\x7bType:" ++ t.kind.name ++ " Literal:" ++ t.literal ++ "\x7d"

/-- The pieces in which the form of a token is written. -/
def pieces (t : Token) : List String :=
  ["\x7bType:", t.kind.name, " Literal:", t.literal, "\x7d"]

theorem join_pieces (t : Token) : String.join t.pieces = t.render := by
  simp [pieces, render, String.append_assoc]

end Token

end MonkeyTokens
