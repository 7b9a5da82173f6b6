import MonkeyTokens.Scanner

/-!
# Dialogues with a scanner

A dialogue is a list of requests put to one scanner, each with its answer.  A
request to drain the scanner uses it up: whatever is asked later is answered by
saying so.

Main results:

- Theorem `Dialogue.answers_append`: a dialogue can be interrupted and resumed.
-/

namespace MonkeyTokens.Dialogue

/-- What a scanner can be asked. -/
inductive Request where
  | token
  | lexeme
  | next
  | nth (n : Nat)
  | take (n : Nat)
  | inspect
  | drain
  deriving DecidableEq, Repr

/-- What a scanner shows of itself. -/
structure Snapshot where
  position : Nat
  readPosition : Nat
  current? : Option Char
  line : Nat
  finished : Bool
  deriving DecidableEq, Repr

/-- What a scanner answers. -/
inductive Answer where
  | token (token : Token)
  | lexeme (lexeme : Lexeme)
  | element (lexeme? : Option Lexeme)
  | elements (lexemes : List Lexeme)
  | snapshot (snapshot : Snapshot)
  | usedUp
  deriving DecidableEq, Repr

/-- What a scanner shows of itself now. -/
def snapshot (s : Scanner) : Snapshot where
  position := s.position
  readPosition := s.readPosition
  current? := s.current?
  line := s.line
  finished := s.finished

/-- The answer to one request, and the scanner afterwards if there still is one. -/
def answer (s : Scanner) : Request → Answer × Option Scanner
  | .token => let (token, s) := s.nextToken; (.token token, some s)
  | .lexeme => let (lexeme, s) := s.nextLexeme; (.lexeme lexeme, some s)
  | .next => let (lexeme?, s) := s.next?; (.element lexeme?, some s)
  | .nth n => let (lexeme?, s) := s.nth n; (.element lexeme?, some s)
  | .take n => let (lexemes, s) := s.take n; (.elements lexemes, some s)
  | .inspect => (.snapshot (snapshot s), some s)
  | .drain => (.elements s.drain, none)

/-- The answer to one request put to a scanner that may be used up. -/
def answer? : Option Scanner → Request → Answer × Option Scanner
  | some s, r => answer s r
  | none, _ => (.usedUp, none)

/-- The answers to a list of requests. -/
def answers : Option Scanner → List Request → List Answer
  | _, [] => []
  | s?, r :: rs => (answer? s? r).1 :: answers (answer? s? r).2 rs

/-- The scanner after a list of requests, if it is not used up. -/
def after (s? : Option Scanner) (rs : List Request) : Option Scanner :=
  rs.foldl (fun s? r => (answer? s? r).2) s?

/-- A dialogue can be interrupted and resumed. -/
theorem answers_append (s? : Option Scanner) (first second : List Request) :
    answers s? (first ++ second) = answers s? first ++ answers (after s? first) second := by
  induction first generalizing s? with
  | nil => rfl
  | cons r rs ih => simp [answers, after, ih]

end MonkeyTokens.Dialogue
