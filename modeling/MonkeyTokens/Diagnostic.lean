import MonkeyTokens.Lexeme
import MonkeyTokens.Location

/-!
# Diagnostics

Every illegal lexeme of a text calls for one diagnostic.  It names the text and
shows a location, if the range of the lexeme has one.  The location is found by
taking the byte offsets of the range as offsets of characters, so it is exact as
long as the text before it is ASCII.

Main results:

- Theorem `length_diagnose`: there are as many diagnostics as illegal lexemes.
-/

namespace MonkeyTokens

/-- A complaint about a character of the named text. -/
structure Diagnostic where
  path : String
  location? : Option Location
  deriving DecidableEq, Repr

/-- The name of a text that was not read from a file. -/
def unnamedPath : String :=
  "<unknown>"

/-- The place that a diagnostic shows, if it shows one. -/
def Diagnostic.place? (d : Diagnostic) : Option String :=
  d.location?.map (fun l => d.path ++ ":" ++ l.render)

/-- The wording of a diagnostic, with its place if it shows one. -/
def Diagnostic.message (d : Diagnostic) : String :=
  match d.place? with
  | some place => "Error: unexpected character at " ++ place ++ "\n"
  | none => "Error: unexpected character in " ++ d.path ++ "\n"

/-- The diagnostic for a lexeme of a text. -/
def Lexeme.diagnostic (path : String) (text : List Char) (l : Lexeme) : Diagnostic where
  path := path
  location? := Location.ofRange? text l.span.start l.span.stop

/-- The diagnostics for some lexemes of a text, in their order. -/
def diagnose (path source : String) (lexemes : List Lexeme) : List Diagnostic :=
  (lexemes.filter Lexeme.isIllegal).map (Lexeme.diagnostic path source.toList)

/-- There are as many diagnostics as illegal lexemes. -/
theorem length_diagnose (path source : String) (lexemes : List Lexeme) :
    (diagnose path source lexemes).length = lexemes.countP Lexeme.isIllegal := by
  simp [diagnose, List.countP_eq_length_filter]

end MonkeyTokens
