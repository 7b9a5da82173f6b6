import MonkeyTokens.CommandLine
import MonkeyTokens.FileReader
import MonkeyTokens.Prompt

/-!
# The program

The whole program as a function: from what it is started with to the outcome.  With a
script it lists and checks the script, without one it runs the prompt.

The surroundings are parameters: how arguments are read, what reading a file gives, and
what the console takes.  The arguments of a run, and so the path of its script, are texts;
what else a system could pass is left out here.

Main results:

- Theorem `Invocation.runWith_of_script`: the bytes of a file decide about a script.
- Theorem `Invocation.runWith_of_prompt`: what the program leaves at the prompt.
- Theorem `Outcome.exitCode_checked`: which scripts fail.
-/

namespace MonkeyTokens

/-- What the program is started with. -/
structure Invocation where
  arguments : List String
  readBytes : FileReader
  input : List UInt8
  showMark : Bool

/-- How a run of the program ends. -/
inductive Outcome where
  | informed (message : String)
  | misused (error : UsageError)
  | unreadable (path : String) (error : ReadError)
  | checked (result : ScriptResult)
  | conversed (ending : Prompt.Ending) (console : Console)

namespace Outcome

/-- The exit code for a command line that is wrong. -/
def usageCode : Nat :=
  2

/-- The exit code for a script with illegal characters. -/
def badDataCode : Nat :=
  65

/-- The exit code: illegal characters make scripts fail, but not the prompt. -/
def exitCode : Outcome → Nat
  | informed _ => 0
  | misused _ => usageCode
  | unreadable _ _ => Prompt.failureCode
  | checked r =>
    match r.illegal with
    | .error _ => Prompt.failureCode
    | .ok n => if 0 < n then badDataCode else 0
  | conversed ending _ => ending.exitCode

/-- The bytes that are printed. -/
def printed : Outcome → List UInt8
  | informed message => Utf8.encode message
  | misused _ => []
  | unreadable _ _ => []
  | checked r => r.sink.taken.toList
  | conversed _ c => c.out.taken.toList

/-- The text that is printed; there is none if a character was cut. -/
def output (o : Outcome) : String :=
  (Utf8.decode? o.printed).getD ""

/-- The diagnostics. -/
def diagnostics : Outcome → List Diagnostic
  | checked r => r.diagnostics
  | conversed _ c => c.complaints.taken.toList
  | _ => []

/-- The message about a failure that is neither about arguments nor characters. -/
def failure? : Outcome → Option String
  | unreadable path error =>
    some ("Error: script `" ++ path ++ "`\n\nCaused by:\n    " ++ error.message ++ "\n")
  | checked r =>
    match r.illegal with
    | .error e => some ("Error: " ++ e.message ++ "\n")
    | .ok _ => none
  | conversed ending _ => ending.message?
  | _ => none

end Outcome

/-- The outcome where reading the command line stopped. -/
def Stop.outcome : Stop → Outcome
  | help => .informed CommandLine.helpText
  | version => .informed CommandLine.versionText
  | misused e => .misused e

/-- What the program is asked to do. -/
inductive Task where
  | finish (outcome : Outcome)
  | script (path : String) (showSpans : Bool)
  | prompt (showSpans : Bool)

/-- The task that a command line sets. -/
def Task.of : Except Stop Options → Task
  | .error stop => .finish stop.outcome
  | .ok options =>
    match options.script? with
    | some path => .script path options.showSpans
    | none => .prompt options.showSpans

/-- The outcome for a script, from what reading its file gave. -/
def runScript (path : String) (showSpans : Bool) (content : Except ReadError (List UInt8))
    (console : Console) : Outcome :=
  match content >>= textOf with
  | .ok source => .checked (Script.run console.out path source showSpans console.complaints)
  | .error e => .unreadable path e

/-- The outcome for a session at the prompt. -/
def runPrompt (editor : Except Prompt.ReadlineError Prompt.LineEditor) (showSpans : Bool)
    (console : Console) : Outcome :=
  let (ending, console) := Prompt.run editor showSpans console
  .conversed ending console

namespace Invocation

/-- The outcome of a run of the program, where `parse` makes options of the arguments.
Unless said otherwise, the console is empty and takes everything. -/
def runWith (parse : List String → Except Stop Options) (i : Invocation)
    (console : Console := .unbounded) : Outcome :=
  match Task.of (parse i.arguments) with
  | .finish outcome => outcome
  | .script path showSpans => runScript path showSpans (i.readBytes path) console
  | .prompt showSpans => runPrompt (.ok (.ofInput i.showMark i.input)) showSpans console

/-- The outcome of a run of the program. -/
def run (i : Invocation) : Outcome :=
  i.runWith CommandLine.parse

variable {parse : List String → Except Stop Options} {i : Invocation} {showSpans : Bool}
  {path source : String} {content : List UInt8}

/-- The bytes of a file that can be read decide about the script. -/
theorem runWith_of_script (hparse : parse i.arguments = .ok ⟨some path, showSpans⟩)
    (hread : i.readBytes path = .ok content) :
    i.runWith parse = runScript path showSpans (.ok content) .unbounded := by
  simp only [runWith, hparse, Task.of, hread]

/-- Without a script, the program answers the lines of its input that can be read, and the
first that cannot decides how it ends. -/
theorem runWith_of_prompt (hparse : parse i.arguments = .ok ⟨none, showSpans⟩) :
    i.runWith parse =
      .conversed (.stopped (.of (Prompt.readings (Prompt.lines i.input)).2))
        (Console.unbounded.after
          (Prompt.transcript (Prompt.invitation i.showMark) showSpans
            (Prompt.readings (Prompt.lines i.input)).1)
          (Prompt.readings (Prompt.lines i.input)).1.length) := by
  simp only [runWith, hparse, Task.of, runPrompt,
    Prompt.run_ofInput Console.unbounded_unbounded]

end Invocation

/-! ## Outcomes on an unbounded console -/

/-- The outcome for a script that is text. -/
theorem runScript_encode (path source : String) (showSpans : Bool) :
    runScript path showSpans (.ok (Utf8.encode source)) .unbounded =
      .checked (Script.run .unbounded path source showSpans) := by
  have htext : textOf (Utf8.encode source) = .ok source := by
    rw [textOf, Utf8.decode?_eq_some_iff.mpr rfl]
  simp only [runScript, bind, Except.bind, htext]
  rfl

namespace Outcome

/-- A script is listed. -/
theorem printed_checked (path source : String) (showSpans : Bool) :
    (checked (Script.run .unbounded path source showSpans)).printed =
      Utf8.encode (listing showSpans (lexemes source)) := by
  rw [Script.run_unbounded rfl rfl]
  exact Outlet.toList_taken_holding _ _

/-- A script is checked. -/
theorem diagnostics_checked (path source : String) (showSpans : Bool) :
    (checked (Script.run .unbounded path source showSpans)).diagnostics =
      diagnose path source (lexemes source) := by
  rw [Script.run_unbounded rfl rfl]
  exact Outlet.toList_taken_holding _ _

/-- A script fails exactly if it has an illegal lexeme. -/
theorem exitCode_checked (path source : String) (showSpans : Bool) :
    (checked (Script.run .unbounded path source showSpans)).exitCode =
      if 0 < (lexemes source).countP Lexeme.isIllegal then badDataCode else 0 := by
  rw [Script.run_unbounded rfl rfl, exitCode]

/-- A session prints what is left of it. -/
theorem printed_conversed (ending : Prompt.Ending) (t : Transcript) (flushes : Nat) :
    (conversed ending (Console.unbounded.after t flushes)).printed = Utf8.encode t.output :=
  Console.toList_out_after_unbounded t flushes

/-- A session complains of what is left of it. -/
theorem diagnostics_conversed (ending : Prompt.Ending) (t : Transcript) (flushes : Nat) :
    (conversed ending (Console.unbounded.after t flushes)).diagnostics = t.diagnostics :=
  Console.toList_complaints_after_unbounded t flushes

end Outcome

end MonkeyTokens
