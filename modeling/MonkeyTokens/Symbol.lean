/-!
# Symbols

The operators and punctuation marks of Monkey.  Every symbol has one spelling, of
one character or, for `==` and `!=`, of two.

Main results:

- Theorem `Symbol.toList_text_of_ofChar?`: a character that is a symbol by itself
  is that symbol's spelling.
- Theorem `Symbol.toList_text_of_joined?`: joining a symbol with an equals sign
  adds that sign to its spelling.
-/

namespace MonkeyTokens

/-- An operator or punctuation mark. -/
inductive Symbol where
  | assign
  | plus
  | minus
  | bang
  | asterisk
  | slash
  | less
  | greater
  | equal
  | notEqual
  | comma
  | semicolon
  | leftParen
  | rightParen
  | leftBrace
  | rightBrace
  deriving DecidableEq, Repr

namespace Symbol

/-- The spelling of a symbol. -/
def text : Symbol → String
  | assign => "="
  | plus => "+"
  | minus => "-"
  | bang => "!"
  | asterisk => "*"
  | slash => "/"
  | less => "<"
  | greater => ">"
  | equal => "=="
  | notEqual => "!="
  | comma => ","
  | semicolon => ";"
  | leftParen => "("
  | rightParen => ")"
  | leftBrace => "\x7b"
  | rightBrace => "\x7d"

/-- The symbol that a single character spells, if any. -/
def ofChar? : Char → Option Symbol
  | '=' => some assign
  | '+' => some plus
  | '-' => some minus
  | '!' => some bang
  | '*' => some asterisk
  | '/' => some slash
  | '<' => some less
  | '>' => some greater
  | ',' => some comma
  | ';' => some semicolon
  | '(' => some leftParen
  | ')' => some rightParen
  | '\x7b' => some leftBrace
  | '\x7d' => some rightBrace
  | _ => none

/-- The symbol that arises when an equals sign follows at once, if any. -/
def joined? : Symbol → Option Symbol
  | assign => some equal
  | bang => some notEqual
  | _ => none

/-! ## Spellings -/

/-- A character that is a symbol by itself is that symbol's spelling. -/
theorem toList_text_of_ofChar? {c : Char} {s : Symbol} (h : ofChar? c = some s) :
    s.text.toList = [c] := by
  unfold ofChar? at h
  split at h
  case h_15 => cases h
  all_goals
    cases h
    decide

/-- Joining a symbol with an equals sign adds that sign to its spelling. -/
theorem toList_text_of_joined? {s t : Symbol} (h : s.joined? = some t) :
    t.text.toList = s.text.toList ++ ['='] := by
  cases s <;> cases h <;> decide

end Symbol

end MonkeyTokens
