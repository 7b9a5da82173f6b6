import MonkeyTokens.Program

/-!
# The executable

Connects the program to the arguments, files and streams of a process.
-/

namespace MonkeyTokens.Executable

/-- The read error that an error of the system stands for.  Directories can be opened and
fail when they are read, and then the error names no file. -/
def readError : IO.Error → ReadError
  | .noFileOrDirectory .. => .notFound
  | .inappropriateType none .. => .isDirectory
  | .inappropriateType (some _) .. => .notDirectory
  | e => .other (toString e)

/-- Reads the bytes of a file. -/
def readBytes (path : String) : IO (Except ReadError (List UInt8)) := do
  try
    let content ← IO.FS.readBinFile path
    return .ok content.toList
  catch e =>
    return .error (readError e)

/-- Prints what is printed, and complains of what is complained of. -/
def emit (t : Transcript) : IO Unit := do
  let stdout ← IO.getStdout
  stdout.putStr t.output
  stdout.flush
  t.diagnostics.forM (fun d => IO.eprint d.message)

/-- Reads the rest of a line, of which some bytes were read already.  Only at the end
of the input is nothing read. -/
partial def readLine (stdin : IO.FS.Stream) (line : ByteArray) : IO ByteArray := do
  let read ← stdin.read 1
  if read.isEmpty then
    return line
  else if read.toList = [Prompt.lineFeed] then
    return line ++ read
  else
    readLine stdin (line ++ read)

/-- Answers line after line until none can be read. -/
partial def converse (invitation : String) (showSpans : Bool) : IO Prompt.Ending := do
  emit (.print invitation)
  let line ← readLine (← IO.getStdin) .empty
  match Prompt.reading line.toList with
  | .error e => return .stopped (.of e)
  | .ok line =>
    try
      emit (Prompt.answer showSpans line)
    catch e =>
      return .unwritable ⟨toString e⟩
    converse invitation showSpans

/-- Ends a run of the program. -/
def finish (outcome : Outcome) : IO UInt32 := do
  emit ⟨outcome.output, outcome.diagnostics⟩
  match outcome with
  | .misused e => IO.eprintln ("error: " ++ e.message)
  | _ => outcome.failure?.forM (fun message => IO.eprint message)
  return outcome.exitCode.toUInt32

/-- Runs the program with some arguments. -/
def run (arguments : List String) : IO UInt32 := do
  match Task.of (CommandLine.parse arguments) with
  | .finish outcome => finish outcome
  | .script path showSpans => finish (runScript path showSpans (← readBytes path) .unbounded)
  | .prompt showSpans =>
    let stdin ← IO.getStdin
    let showMark := (← stdin.isTty) || (← IO.getEnv "TERM") == some "dumb"
    let ending ← converse (Prompt.invitation showMark) showSpans
    finish (.conversed ending .unbounded)

end MonkeyTokens.Executable

/-- The program. -/
def main (arguments : List String) : IO UInt32 :=
  MonkeyTokens.Executable.run arguments
