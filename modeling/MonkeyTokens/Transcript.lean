import MonkeyTokens.Cursor
import MonkeyTokens.Diagnostic
import MonkeyTokens.Listing

/-!
# Transcripts

A transcript is what scanning leaves for the reader: the text that is printed and
the diagnostics.  Transcripts of one scan after another are put end to end.
-/

namespace MonkeyTokens

/-- What is printed, and what is complained of. -/
@[ext]
structure Transcript where
  output : String
  diagnostics : List Diagnostic
  deriving DecidableEq, Repr

namespace Transcript

/-- Nothing is printed and nothing complained of. -/
def empty : Transcript where
  output := ""
  diagnostics := []

/-- One transcript after another. -/
def append (a b : Transcript) : Transcript where
  output := a.output ++ b.output
  diagnostics := a.diagnostics ++ b.diagnostics

instance : Append Transcript where
  append := append

/-- Some text is printed. -/
def print (text : String) : Transcript where
  output := text
  diagnostics := []

/-- A text is scanned, listed and checked under the given name. -/
def ofSource (path source : String) (showSpans : Bool) : Transcript where
  output := listing showSpans (lexemes source)
  diagnostics := diagnose path source (lexemes source)

@[simp]
theorem output_append (a b : Transcript) : (a ++ b).output = a.output ++ b.output :=
  rfl

@[simp]
theorem diagnostics_append (a b : Transcript) :
    (a ++ b).diagnostics = a.diagnostics ++ b.diagnostics :=
  rfl

@[simp]
theorem empty_append (a : Transcript) : empty ++ a = a := by
  ext <;> simp [empty]

theorem append_assoc (a b c : Transcript) : a ++ b ++ c = a ++ (b ++ c) := by
  ext <;> simp [String.append_assoc]

end Transcript

end MonkeyTokens
