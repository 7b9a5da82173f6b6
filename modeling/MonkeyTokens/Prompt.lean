import MonkeyTokens.FileReader
import MonkeyTokens.Script

/-!
# The prompt

The prompt reads line by line and answers each line as a text of its own, until no line
can be read.  A line editor reads for it; what the editor fails with decides how the
prompt stops, and with which exit code.

Of line editors no more is said than what they read and remember.  On input that is no
terminal, a line feed ends a line, and with it a carriage return in front of it goes; the
last line may lack its line feed.  Reading fails at the end of the input and at a line
that is not text.  A mark is shown before every attempt to read, also the one that fails.

Main results:

- Theorem `flatten_lines`: splitting into lines loses nothing.
- Theorem `lines_append_of_getLast?`: what follows a line feed begins a line of its own.
- Theorem `converse_unbounded`: a session on a console that refuses nothing.
- Theorem `exitCode_stopped_of`: how the error of the line editor decides the exit code.
-/

namespace MonkeyTokens.Prompt

/-- The byte that ends a line. -/
def lineFeed : UInt8 :=
  10

/-- The byte that goes with a line feed behind it. -/
def carriageReturn : UInt8 :=
  13

/-- The text that invites the next line. -/
def mark : String :=
  ">> "

/-! ## Lines of the input -/

/-- The lines of some bytes, each with the line feed that ends it. -/
def lines : List UInt8 → List (List UInt8)
  | [] => []
  | b :: bytes =>
    if b = lineFeed then [b] :: lines bytes
    else
      match lines bytes with
      | [] => [[b]]
      | line :: rest => (b :: line) :: rest

/-- A line without the line feed that ends it and the carriage return before that. -/
def content (line : List UInt8) : List UInt8 :=
  match line.reverse with
  | last :: rest =>
    if last = lineFeed then
      match rest with
      | before :: rest => if before = carriageReturn then rest.reverse else (before :: rest).reverse
      | [] => []
    else line
  | [] => []

/-- The text of a line, if it is text.  A backspace is a character like any other; that a
line editor may take it to erase the one before is left out. -/
def text? (line : List UInt8) : Option String :=
  Utf8.decode? (content line)

/-- Splitting into lines loses nothing. -/
theorem flatten_lines (bytes : List UInt8) : (lines bytes).flatten = bytes := by
  induction bytes with
  | nil => rfl
  | cons b bytes ih =>
    unfold lines
    split
    · simp [ih]
    · split
      · rename_i hlines
        simp_all
      · rename_i hlines
        rw [hlines] at ih
        simpa using ih

/-- A line feed ends the line that it is on. -/
theorem lines_lineFeed_cons (bytes : List UInt8) :
    lines (lineFeed :: bytes) = [lineFeed] :: lines bytes := by
  rw [lines, if_pos rfl]

/-- A byte that is no line feed is put in front of the line that follows. -/
theorem lines_cons_of_ne {x : UInt8} (hx : x ≠ lineFeed) {bytes line : List UInt8}
    {rest : List (List UInt8)} (h : lines bytes = line :: rest) :
    lines (x :: bytes) = (x :: line) :: rest := by
  rw [lines, if_neg hx, h]

/-- What follows a line feed begins a line of its own. -/
theorem lines_append_of_getLast? {a : List UInt8} (h : a.getLast? = some lineFeed)
    (b : List UInt8) :
    lines (a ++ b) = lines a ++ lines b := by
  induction a with
  | nil => simp at h
  | cons x a ih =>
    by_cases hx : x = lineFeed
    · subst hx
      cases a with
      | nil => simp [lines_lineFeed_cons, lines]
      | cons y a =>
        have ih := ih (by simpa using h)
        rw [List.cons_append, lines_lineFeed_cons, ih, lines_lineFeed_cons, List.cons_append]
    · cases a with
      | nil => exact absurd (by simpa using h) hx
      | cons y a =>
        have ih := ih (by simpa using h)
        cases hlines : lines (y :: a) with
        | nil => simpa [hlines] using flatten_lines (y :: a)
        | cons line rest =>
          rw [hlines] at ih
          rw [List.cons_append, lines_cons_of_ne hx ih, lines_cons_of_ne hx hlines]
          rfl

/-! ## Reading lines -/

/-- Why no line could be read. -/
inductive ReadlineError where
  | endOfInput
  | interrupted
  | io (error : ReadError)
  | other (message : String)
  deriving DecidableEq, Repr

/-- The wording of an error of the line editor. -/
def ReadlineError.message : ReadlineError → String
  | endOfInput => "EOF"
  | interrupted => "Interrupted"
  | io error => error.message
  | other message => message

/-- How the prompt stops when no line could be read: the input is closed or cannot be read,
or the user interrupts it. -/
inductive Stop where
  | closed
  | interrupted
  deriving DecidableEq, Repr

/-- Only an interruption stops the prompt as one; any other error closes it. -/
def Stop.of : ReadlineError → Stop
  | .interrupted => .interrupted
  | _ => .closed

/-- What a line editor does for a session: it shows an invitation before every attempt to
read, reads some lines, fails with an error then, and remembers the lines that it is given. -/
structure LineEditor where
  invitation : String
  lines : List String
  error : ReadlineError
  remember : String → Except ReadlineError Unit

/-- What an attempt to read a line gives, from the bytes up to the next line feed.  There
are none at the end of the input only. -/
def reading : List UInt8 → Except ReadlineError String
  | [] => .error .endOfInput
  | line =>
    match text? line with
    | none => .error (.io .notText)
    | some text => .ok text

/-- The texts of some lines up to the first that cannot be read, and why that cannot. -/
def readings : List (List UInt8) → List String × ReadlineError
  | [] => ([], .endOfInput)
  | line :: rest =>
    match reading line with
    | .error e => ([], e)
    | .ok text => (text :: (readings rest).1, (readings rest).2)

/-- A line is read if it is text. -/
theorem reading_eq_ok_iff {line : List UInt8} {text : String} :
    reading line = .ok text ↔ line ≠ [] ∧ text? line = some text := by
  cases line with
  | nil => simp [reading]
  | cons b line => cases h : text? (b :: line) <;> simp [reading, h]

/-- A line is not read if it is not text. -/
theorem reading_of_isNone {line : List UInt8} (hne : line ≠ [])
    (h : (text? line).isSome = false) : reading line = .error (.io .notText) := by
  cases line with
  | nil => exact absurd rfl hne
  | cons b line =>
    rw [Option.isSome_eq_false_iff, Option.isNone_iff_eq_none] at h
    simp [reading, h]

/-- A line that is text is read, and then those behind it. -/
theorem readings_cons_of_ok {line : List UInt8} {text : String} (h : reading line = .ok text)
    (rest : List (List UInt8)) :
    readings (line :: rest) = (text :: (readings rest).1, (readings rest).2) := by
  rw [readings, h]

/-- Nothing is read from a line on that is not text. -/
theorem readings_cons_of_error {line : List UInt8} {e : ReadlineError}
    (h : reading line = .error e) (rest : List (List UInt8)) :
    readings (line :: rest) = ([], e) := by
  rw [readings, h]

/-- Reading from input that is no terminal is never interrupted. -/
theorem error_readings_ne_interrupted (input : List (List UInt8)) :
    (readings input).2 ≠ .interrupted := by
  induction input with
  | nil => simp [readings]
  | cons line rest ih =>
    cases hline : reading line with
    | ok text =>
      rw [readings_cons_of_ok hline]
      exact ih
    | error e =>
      rw [readings_cons_of_error hline]
      rintro rfl
      unfold reading at hline
      split at hline
      · cases hline
      · split at hline <;> cases hline

/-- What is shown before every attempt to read. -/
def invitation (showMark : Bool) : String :=
  if showMark then mark else ""

/-- The line editor on input that is no terminal: it reads line by line, and remembers
whatever it is given. -/
def LineEditor.ofInput (showMark : Bool) (input : List UInt8) : LineEditor where
  invitation := Prompt.invitation showMark
  lines := (readings (Prompt.lines input)).1
  error := (readings (Prompt.lines input)).2
  remember := fun _ => .ok ()

/-! ## Sessions -/

/-- How a session ends: it stops, or something else fails that the program does not handle. -/
inductive Ending where
  | stopped (stop : Stop)
  | unwritable (error : WriteError)
  | editorFailed (error : ReadlineError)
  deriving DecidableEq, Repr

/-- The exit code for a failure. -/
def failureCode : Nat :=
  1

/-- The exit code of a stop: a closed input is no failure, but an interruption is. -/
def Stop.exitCode : Stop → Nat
  | closed => 0
  | interrupted => failureCode

/-- The exit code of a session. -/
def Ending.exitCode : Ending → Nat
  | stopped stop => stop.exitCode
  | unwritable _ => failureCode
  | editorFailed _ => failureCode

/-- What is said about the end of a session, unless its input was closed. -/
def Ending.message? : Ending → Option String
  | stopped .closed => none
  | stopped .interrupted => some "user exit\n"
  | unwritable error => some ("Error: " ++ error.message ++ "\n")
  | editorFailed error => some ("Error: " ++ error.message ++ "\n")

/-- A session fails exactly if it was interrupted, once it stops at all. -/
theorem exitCode_stopped_of (e : ReadlineError) :
    (Ending.stopped (.of e)).exitCode = if e = .interrupted then failureCode else 0 := by
  cases e <;> rfl

/-- Answers a line: lists it, flushes the listing and checks the line. -/
def reply (showSpans : Bool) (line : String) (c : Console) : Except WriteError Unit × Console :=
  let found := lexemes line
  match c.out.writeListing showSpans found with
  | (.error e, out) => (.error e, { c with out })
  | (.ok (), out) =>
    match c.flushes.put [()] with
    | (.error e, flushes) => (.error e, { c with out, flushes })
    | (.ok (), flushes) =>
      let (reported, complaints) := c.complaints.put (diagnose unnamedPath line found)
      (reported, { out, flushes, complaints })

/-- Answers some lines, each of them remembered before, until no more can be read. -/
def converse (editor : LineEditor) (showSpans : Bool) : List String → Console → Ending × Console
  | [], c => (.stopped (.of editor.error), c.invite editor.invitation)
  | line :: rest, c =>
    let c := c.invite editor.invitation
    match editor.remember line with
    | .error e => (.editorFailed e, c)
    | .ok () =>
      match reply showSpans line c with
      | (.error e, c) => (.unwritable e, c)
      | (.ok (), c) => converse editor showSpans rest c

/-- A session with a line editor, if that is to be had. -/
def run (editor : Except ReadlineError LineEditor) (showSpans : Bool) (c : Console) :
    Ending × Console :=
  match editor with
  | .error e => (.editorFailed e, c)
  | .ok editor => converse editor showSpans editor.lines c

/-! ## Sessions on an unbounded console -/

/-- What is left of answering a line. -/
def answer (showSpans : Bool) (line : String) : Transcript :=
  .ofSource unnamedPath line showSpans

/-- What is left of answering some lines, if `invitation` was shown before each. -/
def answers (invitation : String) (showSpans : Bool) : List String → Transcript
  | [] => .empty
  | line :: rest =>
    .print invitation ++ answer showSpans line ++ answers invitation showSpans rest

/-- What is left of a session that answered some lines: behind the last, one more was invited. -/
def transcript (invitation : String) (showSpans : Bool) (lines : List String) : Transcript :=
  answers invitation showSpans lines ++ .print invitation

theorem answers_append (invitation : String) (showSpans : Bool) (first second : List String) :
    answers invitation showSpans (first ++ second) =
      answers invitation showSpans first ++ answers invitation showSpans second := by
  induction first with
  | nil => exact (Transcript.empty_append _).symm
  | cons line first ih =>
    rw [List.cons_append, answers, answers, ih, Transcript.append_assoc _ _ (answers _ _ second)]

/-- A line is answered once it is invited, and then those behind it are. -/
theorem transcript_cons (invitation : String) (showSpans : Bool) (line : String)
    (rest : List String) :
    transcript invitation showSpans (line :: rest) =
      .print invitation ++ answer showSpans line ++ transcript invitation showSpans rest := by
  rw [transcript, answers, Transcript.append_assoc, transcript]

variable {c : Console}

/-- Where nothing is refused, a line is answered. -/
theorem reply_unbounded (h : c.Unbounded) (showSpans : Bool) (line : String) :
    reply showSpans line c = (.ok (), c.after (answer showSpans line) 1) := by
  simp only [reply, Sink.writeListing_eq_write, Sink.write_unbounded h.out,
    Outlet.put_unbounded h.flushes, Outlet.put_unbounded h.complaints]
  rfl

/-- Where nothing is refused and all lines are remembered, all are answered, and the last
attempt to read decides how the session stops. -/
theorem converse_unbounded {editor : LineEditor} (hremember : ∀ line, editor.remember line = .ok ())
    (h : c.Unbounded) (showSpans : Bool) (lines : List String) :
    converse editor showSpans lines c =
      (.stopped (.of editor.error),
        c.after (transcript editor.invitation showSpans lines) lines.length) := by
  induction lines generalizing c with
  | nil =>
    rw [converse, Console.invite_eq_after h, transcript, answers, Transcript.empty_append,
      List.length_nil]
  | cons line rest ih =>
    have hinvited : (c.after (.print editor.invitation) 0).Unbounded := h.after _ _
    rw [converse]
    simp only [hremember, Console.invite_eq_after h, reply_unbounded hinvited]
    rw [ih (hinvited.after _ _), Console.after_after, Console.after_after, transcript_cons,
      List.length_cons, Nat.zero_add, Nat.add_comm, Transcript.append_assoc]

/-- On input that is no terminal, a session answers the lines up to the first that cannot be
read. -/
theorem run_ofInput (h : c.Unbounded) (showMark showSpans : Bool) (input : List UInt8) :
    run (.ok (.ofInput showMark input)) showSpans c =
      (.stopped (.of (readings (lines input)).2),
        c.after (transcript (invitation showMark) showSpans (readings (lines input)).1)
          (readings (lines input)).1.length) :=
  converse_unbounded (fun _ => rfl) h showSpans _

end MonkeyTokens.Prompt
