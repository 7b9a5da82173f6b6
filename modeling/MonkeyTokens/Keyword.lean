/-!
# Keywords

The reserved words of Monkey, each with its spelling and with the name under
which a token listing shows it.
-/

namespace MonkeyTokens

/-- A reserved word. -/
inductive Keyword where
  | function
  | binding
  | truth
  | falsity
  | condition
  | alternative
  | result
  deriving DecidableEq, Repr

namespace Keyword

/-- The spelling of a keyword in a script. -/
def spelling : Keyword → String
  | function => "fn"
  | binding => "let"
  | truth => "true"
  | falsity => "false"
  | condition => "if"
  | alternative => "else"
  | result => "return"

/-- The name of a keyword in a listing. -/
def name : Keyword → String
  | function => "FUNCTION"
  | binding => "LET"
  | truth => "TRUE"
  | falsity => "FALSE"
  | condition => "IF"
  | alternative => "ELSE"
  | result => "RETURN"

/-- All keywords. -/
def all : List Keyword :=
  [function, binding, truth, falsity, condition, alternative, result]

/-- The keyword with the given spelling, if there is one. -/
def ofSpelling? (word : String) : Option Keyword :=
  all.find? (fun k => k.spelling == word)

end Keyword

end MonkeyTokens
