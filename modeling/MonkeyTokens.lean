import MonkeyTokens.Alphabet
import MonkeyTokens.Arguments
import MonkeyTokens.CommandLine
import MonkeyTokens.Console
import MonkeyTokens.Cursor
import MonkeyTokens.Diagnostic
import MonkeyTokens.FileReader
import MonkeyTokens.FileTree
import MonkeyTokens.Keyword
import MonkeyTokens.Lexeme
import MonkeyTokens.Listing
import MonkeyTokens.Location
import MonkeyTokens.Main
import MonkeyTokens.Munch
import MonkeyTokens.Outlet
import MonkeyTokens.Program
import MonkeyTokens.Prompt
import MonkeyTokens.Proofs.AcceptedArguments
import MonkeyTokens.Proofs.BoundedRoom
import MonkeyTokens.Proofs.Concatenation
import MonkeyTokens.Proofs.ConformingReader
import MonkeyTokens.Proofs.CursorInvariant
import MonkeyTokens.Proofs.Decoding
import MonkeyTokens.Proofs.DiagnosticOrder
import MonkeyTokens.Proofs.FiniteRuns
import MonkeyTokens.Proofs.Layout
import MonkeyTokens.Proofs.LexemeStarts
import MonkeyTokens.Proofs.Lexicon
import MonkeyTokens.Proofs.LineByLine
import MonkeyTokens.Proofs.LineNumbers
import MonkeyTokens.Proofs.Lines
import MonkeyTokens.Proofs.LocationOrder
import MonkeyTokens.Proofs.LongestLexeme
import MonkeyTokens.Proofs.Pinpoint
import MonkeyTokens.Proofs.Progress
import MonkeyTokens.Proofs.ProperLexemes
import MonkeyTokens.Proofs.Reading
import MonkeyTokens.Proofs.RegisterReading
import MonkeyTokens.Proofs.Replay
import MonkeyTokens.Proofs.Seams
import MonkeyTokens.Proofs.Sessions
import MonkeyTokens.Proofs.StrayCharacters
import MonkeyTokens.Proofs.Tokenization
import MonkeyTokens.Proofs.Within
import MonkeyTokens.Scanner
import MonkeyTokens.Scanner.Dialogue
import MonkeyTokens.Scanner.Registers
import MonkeyTokens.Script
import MonkeyTokens.Sink
import MonkeyTokens.Symbol
import MonkeyTokens.Token
import MonkeyTokens.Transcript
import MonkeyTokens.Utf8
import MonkeyTokens.Utf8.Offset
