import MonkeyTokens.Arguments

/-!
# Command line

The program takes at most one script and the flag for spans, besides the flags for help
and the version that every program takes.  What a reader of arguments finds is made into
the options of the program.

The reader itself is a parameter, of which `Conforms` says what is known.  One such reader
is given here, for runs: it reads from left to right, and the first argument that is
wrong, or asks for help or the version, decides.  An operand whose value is not accepted
is noticed only when the next good flag acts, or at the end.
-/

namespace MonkeyTokens

/-- What a good command line asks for. -/
structure Options (α : Type := String) where
  script? : Option α
  showSpans : Bool
  deriving DecidableEq, Repr

/-- What can be wrong with a command line. -/
inductive UsageError (α : Type := String) where
  | unknownArgument (argument : α)
  | unexpectedValue (argument : α)
  | repeatedFlag (argument : α)
  | emptyScript
  deriving DecidableEq, Repr

/-- The wording of a usage error. -/
def UsageError.message : UsageError → String
  | unknownArgument a => "unexpected argument '" ++ a ++ "' found"
  | unexpectedValue a => "unexpected value in '" ++ a ++ "': the flag takes none"
  | repeatedFlag a => "the argument '" ++ a ++ "' cannot be used multiple times"
  | emptyScript => "a value is required for '[SCRIPT]' but none was supplied"

/-- Why the reading of a command line stopped before its end. -/
inductive Stop (α : Type := String) where
  | help
  | version
  | misused (error : UsageError α)
  deriving DecidableEq, Repr

open SystemText

variable {α : Type} [DecidableEq α] [SystemText α]

/-! ## A reader of arguments -/

/-- The shapes of an argument. -/
inductive Argument where
  | operand
  | endOfFlags
  | flag
  | help
  | version
  | valued
  | unknown
  deriving DecidableEq, Repr

/-- The byte between a flag and a value. -/
def equalsSign : UInt8 :=
  61

/-- The shape of an argument in front of the double hyphen.  A lone hyphen is an
operand, and the first letter behind a single hyphen, `h` or `V`, decides about the rest. -/
def Argument.of (d : Declaration α) (argument : α) : Argument :=
  match bytes argument with
  | 45 :: 45 :: _ =>
    if argument = doubleHyphen then .endOfFlags
    else if argument ∈ d.flags then .flag
    else if argument = ofText "--help" then .help
    else if argument = ofText "--version" then .version
    else if (d.flags ++ [ofText "--help", ofText "--version"]).any
        (fun flag => (bytes flag ++ [equalsSign]).isPrefixOf (bytes argument)) then
      .valued
    else .unknown
  | 45 :: 104 :: _ => .help
  | 45 :: 86 :: _ => .version
  | 45 :: _ :: _ => .unknown
  | _ => .operand

namespace Matches

/-- Takes an operand, of which there may be so many. -/
def takeOperand (d : Declaration α) (m : Matches α) (argument : α) :
    Except (Stop α) (Matches α) :=
  if m.operands.length < d.operandLimit then .ok (m.addOperand argument)
  else .error (.misused (.unknownArgument argument))

/-- Takes all arguments as operands. -/
def takeOperands (d : Declaration α) (m : Matches α) : List α → Except (Stop α) (Matches α)
  | [] => .ok m
  | argument :: arguments => do (← m.takeOperand d argument).takeOperands d arguments

/-- Refuses operands whose value is not accepted. -/
def settle (d : Declaration α) (m : Matches α) : Except (Stop α) (Matches α) :=
  if m.operands.all d.accepts then .ok m else .error (.misused .emptyScript)

/-- Takes a flag, which may be given once. -/
def takeFlag (d : Declaration α) (m : Matches α) (argument : α) :
    Except (Stop α) (Matches α) := do
  let m ← m.settle d
  if argument ∈ m.flags then .error (.misused (.repeatedFlag argument))
  else .ok (m.addFlag argument)

/-- Takes a list of arguments. -/
def takeArguments (d : Declaration α) (m : Matches α) : List α → Except (Stop α) (Matches α)
  | [] => .ok m
  | argument :: arguments =>
    match Argument.of d argument with
    | .operand => do (← m.takeOperand d argument).takeArguments d arguments
    | .endOfFlags => m.takeOperands d arguments
    | .flag => do (← m.takeFlag d argument).takeArguments d arguments
    | .help => do
      let _ ← m.settle d
      .error .help
    | .version => do
      let _ ← m.settle d
      .error .version
    | .valued => .error (.misused (.unexpectedValue argument))
    | .unknown => .error (.misused (.unknownArgument argument))

/-- Reads the arguments of a declared program. -/
def read (d : Declaration α) : ArgumentReader α (Stop α) := fun arguments => do
  (← empty.takeArguments d arguments).settle d

end Matches

/-! ## The program's own command line -/

namespace CommandLine

/-- What the program declares: a flag for spans, and one script, whose name is not empty. -/
def declaration : Declaration α where
  flags := [ofText "--spans"]
  operandLimit := 1
  accepts := fun argument => argument ≠ ofText ""
  flags_long := by
    intro flag hflag
    rw [List.mem_singleton.mp hflag]
    have hbytes : bytes (ofText "--spans" : α) ≠ bytes (doubleHyphen : α) := by
      rw [doubleHyphen, bytes_ofText, bytes_ofText]
      decide
    refine ⟨fun heq => hbytes (congrArg bytes heq), ?_⟩
    rw [bytes_ofText]
    decide

/-- The options that some matches amount to. -/
def options (m : Matches α) : Options α where
  script? := m.operands.head?
  showSpans := decide (ofText "--spans" ∈ m.flags)

/-- What a command line asks for, unless the reader of its arguments fails. -/
def parseWith {ε : Type} (read : ArgumentReader α ε) (arguments : List α) :
    Except ε (Options α) :=
  (read arguments).map options

/-- What a command line asks for, unless reading it stops early. -/
def parse : List String → Except Stop Options :=
  parseWith (Matches.read declaration)

/-- The lines of the answer to a request for help. -/
def helpLines : List String :=
  ["Print the tokens of a Monkey script",
   "",
   "Usage: monkey [OPTIONS] [SCRIPT]",
   "",
   "Arguments:",
   "  [SCRIPT]  Tokenize a script instead of starting the prompt",
   "",
   "Options:",
   "      --spans    Show the byte range and line of every token",
   "  -h, --help     Print help",
   "  -V, --version  Print version"]

/-- The answer to a request for help. -/
def helpText : String :=
  String.join (helpLines.map (fun line => line ++ "\n"))

/-- The answer to a request for the version. -/
def versionText : String :=
  "monkey-lex 0.1.0\n"

end CommandLine

end MonkeyTokens
