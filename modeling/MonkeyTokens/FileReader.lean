import MonkeyTokens.Utf8

/-!
# Reading files

What a path leads to is known to the system alone, so reading is a function that is
given: from a path to the bytes of a file, or to the reason why there are none.  Whether
the bytes are a text is decided here.
-/

namespace MonkeyTokens

/-- Why a text could not be read. -/
inductive ReadError where
  | notFound
  | isDirectory
  | notDirectory
  | notText
  | other (message : String)
  deriving DecidableEq, Repr

/-- The wording of a read error. -/
def ReadError.message : ReadError → String
  | notFound => "No such file or directory (os error 2)"
  | isDirectory => "Is a directory (os error 21)"
  | notDirectory => "Not a directory (os error 20)"
  | notText => "stream did not contain valid UTF-8"
  | other message => message

/-- What reading the file to which a path leads gives. -/
abbrev FileReader := String → Except ReadError (List UInt8)

/-- The text with the given bytes. -/
def textOf (content : List UInt8) : Except ReadError String :=
  match Utf8.decode? content with
  | some text => .ok text
  | none => .error .notText

end MonkeyTokens
