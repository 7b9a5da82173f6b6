import MonkeyTokens.Console

/-!
# Scripts

A script is listed into a sink and then checked for illegal characters.  The diagnostics
come after the listing, so there are none if the sink refused it.  Making them known can
fail too, and then the script is not said to have any number of illegal lexemes.

Main results:

- Theorem `Script.run_unbounded`: where nothing is refused, what is left of a script is its
  transcript.
- Theorem `Script.diagnostics_run_unbounded`: there is one diagnostic for each illegal lexeme.
-/

namespace MonkeyTokens

/-- What is left of listing and checking a script: the sink, the number of illegal
lexemes unless something was refused, and the outlet for complaints. -/
structure ScriptResult where
  sink : Sink
  illegal : Except WriteError Nat
  complaints : Complaints

/-- The diagnostics that were made known. -/
def ScriptResult.diagnostics (r : ScriptResult) : List Diagnostic :=
  r.complaints.taken.toList

/-- Lists some lexemes into a sink, piece by piece. -/
def Sink.writeListing (s : Sink) (showSpans : Bool) (lexemes : List Lexeme) :
    Except WriteError Unit × Sink :=
  s.writeAll (listingPieces showSpans lexemes)

/-- The listing goes into the sink as if it were written in one piece. -/
theorem Sink.writeListing_eq_write (s : Sink) (showSpans : Bool) (lexemes : List Lexeme) :
    s.writeListing showSpans lexemes = s.write (listing showSpans lexemes) := by
  rw [writeListing, writeAll_eq_write_join, join_listingPieces]

namespace Script

/-- Lists a script into a sink and checks it.  Unless said otherwise, all complaints are
taken. -/
def run (sink : Sink) (path source : String) (showSpans : Bool)
    (complaints : Complaints := .unbounded) : ScriptResult :=
  let found := lexemes source
  match sink.writeListing showSpans found with
  | (.error e, sink) => ⟨sink, .error e, complaints⟩
  | (.ok (), sink) =>
    match complaints.put (diagnose path source found) with
    | (.error e, complaints) => ⟨sink, .error e, complaints⟩
    | (.ok (), complaints) => ⟨sink, .ok (found.countP Lexeme.isIllegal), complaints⟩

/-- Where nothing is refused, what is left of a script is its transcript. -/
theorem run_unbounded {sink : Sink} {complaints : Complaints} (hsink : sink.room? = none)
    (hcomplaints : complaints.room? = none) (path source : String) (showSpans : Bool) :
    run sink path source showSpans complaints =
      { sink := sink.holding (Utf8.encode (Transcript.ofSource path source showSpans).output)
        illegal := .ok ((lexemes source).countP Lexeme.isIllegal)
        complaints :=
          complaints.holding (Transcript.ofSource path source showSpans).diagnostics } := by
  simp only [run, Sink.writeListing_eq_write, Sink.write_unbounded hsink,
    Outlet.put_unbounded hcomplaints, Transcript.ofSource]

/-- Where nothing is refused, there is one diagnostic for each illegal lexeme. -/
theorem diagnostics_run_unbounded (path source : String) (showSpans : Bool) :
    (run (.ofRoom? none) path source showSpans).diagnostics =
      ((lexemes source).filter Lexeme.isIllegal).map (Lexeme.diagnostic path source.toList) := by
  rw [run_unbounded rfl rfl, ScriptResult.diagnostics, Outlet.toList_taken_holding]
  rfl

end Script

end MonkeyTokens
