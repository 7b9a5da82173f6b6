import MonkeyTokens.Sink
import MonkeyTokens.Transcript

/-!
# Consoles

A console is what a run shows itself on: a sink for what is printed, which can be flushed,
and an outlet for complaints.  Each of them may refuse what it is given, so a console is
handed from one step of a run to the next.

Main results:

- Theorem `Console.after_after`: one transcript after another leaves what both leave
  together.
- Theorem `Console.invite_eq_after`: an unbounded console takes every invitation.
-/

namespace MonkeyTokens

/-- An outlet for diagnostics. -/
abbrev Complaints := Outlet Diagnostic

/-- What was printed, how often that was flushed, and what was complained of. -/
structure Console where
  out : Sink
  flushes : Outlet Unit
  complaints : Complaints
  deriving DecidableEq, Repr

namespace Console

/-- An empty console that takes everything. -/
def unbounded : Console where
  out := .unbounded
  flushes := .unbounded
  complaints := .unbounded

/-- Nothing that is put on the console is refused. -/
structure Unbounded (c : Console) : Prop where
  out : c.out.room? = none
  flushes : c.flushes.room? = none
  complaints : c.complaints.room? = none

/-- Shows a text that invites input.  Whether it could be shown is not asked. -/
def invite (c : Console) (text : String) : Console :=
  { c with out := (c.out.write text).2 }

/-- The console once it holds a transcript, behind so many flushes. -/
def after (c : Console) (t : Transcript) (flushes : Nat) : Console where
  out := c.out.holding (Utf8.encode t.output)
  flushes := c.flushes.holding (List.replicate flushes ())
  complaints := c.complaints.holding t.diagnostics

theorem unbounded_unbounded : unbounded.Unbounded :=
  ⟨rfl, rfl, rfl⟩

theorem Unbounded.after {c : Console} (h : c.Unbounded) (t : Transcript) (flushes : Nat) :
    (c.after t flushes).Unbounded :=
  ⟨h.out, h.flushes, h.complaints⟩

/-- One transcript after another leaves what both leave together. -/
theorem after_after (c : Console) (s t : Transcript) (m n : Nat) :
    (c.after s m).after t n = c.after (s ++ t) (m + n) := by
  simp [after, Outlet.holding_holding, Utf8.encode_append]

/-- An empty console holds the bytes of a transcript. -/
theorem toList_out_after_unbounded (t : Transcript) (flushes : Nat) :
    (unbounded.after t flushes).out.taken.toList = Utf8.encode t.output :=
  Outlet.toList_taken_holding _ _

/-- An empty console holds the diagnostics of a transcript. -/
theorem toList_complaints_after_unbounded (t : Transcript) (flushes : Nat) :
    (unbounded.after t flushes).complaints.taken.toList = t.diagnostics :=
  Outlet.toList_taken_holding _ _

/-- An unbounded console takes every invitation. -/
theorem invite_eq_after {c : Console} (h : c.Unbounded) (text : String) :
    c.invite text = c.after (.print text) 0 := by
  simp [invite, Sink.write_unbounded h.out, after, Transcript.print]

end Console

end MonkeyTokens
