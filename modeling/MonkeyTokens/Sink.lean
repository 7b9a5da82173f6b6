import MonkeyTokens.Outlet
import MonkeyTokens.Utf8

/-!
# Sinks

A sink is an outlet for the bytes of texts.  With bounded room it takes as many bytes of a
text as still fit, even if that cuts a character.

Main results:

- Theorem `Sink.writeAll_eq_write_join`: however a text is cut into pieces, writing
  them is writing the text.
-/

namespace MonkeyTokens

/-- An outlet for bytes. -/
abbrev Sink := Outlet UInt8

namespace Sink

/-- An empty sink with the given room, which refuses what does not fit. -/
def ofRoom? (room? : Option Nat) (refusal : WriteError := .limitReached) : Sink where
  room? := room?
  refusal := refusal
  taken := #[]

/-- Writes a text: takes the bytes that fit, and fails if these are not all. -/
def write (s : Sink) (text : String) : Except WriteError Unit × Sink :=
  s.put (Utf8.encode text)

/-- Writes some texts one after the other, up to the first that fails. -/
def writeAll (s : Sink) : List String → Except WriteError Unit × Sink
  | [] => (.ok (), s)
  | text :: texts =>
    match s.write text with
    | (.ok (), s) => s.writeAll texts
    | (.error e, s) => (.error e, s)

/-- A sink without bound takes everything. -/
theorem write_unbounded {s : Sink} (h : s.room? = none) (text : String) :
    s.write text = (.ok (), s.holding (Utf8.encode text)) :=
  Outlet.put_unbounded h _

/-- Two texts put together are written like the first and, if it fits, the second. -/
theorem write_append (s : Sink) (a b : String) :
    s.write (a ++ b) =
      match s.write a with
      | (.ok (), s) => s.write b
      | (.error e, s) => (.error e, s) := by
  rw [write, Utf8.encode_append, Outlet.put_append, ← write]
  rcases s.write a with ⟨_ | _, _⟩ <;> rfl

/-- However a text is cut into pieces, writing them is writing the text. -/
theorem writeAll_eq_write_join (s : Sink) (texts : List String) :
    s.writeAll texts = s.write (String.join texts) := by
  induction texts generalizing s with
  | nil => exact (Outlet.put_nil s).symm
  | cons text texts ih =>
    rw [writeAll, String.join_cons, write_append]
    split <;> simp_all

end Sink

end MonkeyTokens
