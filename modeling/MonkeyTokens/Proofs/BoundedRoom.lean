import MonkeyTokens.Script

/-!
# Listings in bounded room

A listing is written in many small pieces, and a sink may run full between two of them
or inside one.  What the sink has taken then depends on the bytes of the listing and on
the room alone: it is the whole listing, or as many of its first bytes as there is room
for.  A script is checked only if its listing was taken whole.

Main results:

- Theorem `Sink.cutTo_write`: a text is taken whole, or cut to the room.
- Theorem `cutTo_writeListing`: the same for the pieces of a listing.
- Theorem `listing_cut_to_room`: with or without diagnostics behind it, a listing is cut
  to the room, and a listing that was cut is followed by no diagnostics.
-/

namespace MonkeyTokens

/-! ## Bytes cut to the room there is -/

/-- Some bytes went into an empty sink: all of them, with `value` as the result, or as
many as there was room for, and then the sink refused the rest. -/
structure CutTo {α : Type} (room : Nat) (refusal : WriteError) (bytes : List UInt8) (value : α)
    (result : Except WriteError α) (taken : Array UInt8) : Prop where
  ok_iff : result = .ok value ↔ bytes.length ≤ room
  taken_of_le : bytes.length ≤ room → taken.toList = bytes
  error_of_lt : room < bytes.length → result = .error refusal
  taken_of_lt : room < bytes.length → taken.toList = bytes.take room

section

variable {room : Nat} {refusal : WriteError} {α : Type} {bytes : List UInt8} {value : α}

/-- Bytes that fit are taken whole. -/
theorem cutTo_of_le (h : bytes.length ≤ room) :
    CutTo room refusal bytes value (.ok value) bytes.toArray where
  ok_iff := iff_of_true rfl h
  taken_of_le _ := rfl
  error_of_lt hlt := absurd h (Nat.not_le.mpr hlt)
  taken_of_lt hlt := absurd h (Nat.not_le.mpr hlt)

/-- Bytes that do not fit are cut. -/
theorem cutTo_of_lt (h : room < bytes.length) :
    CutTo room refusal bytes value (.error refusal) (bytes.take room).toArray where
  ok_iff := iff_of_false (by simp) (Nat.not_le.mpr h)
  taken_of_le hle := absurd h (Nat.not_lt.mpr hle)
  error_of_lt _ := rfl
  taken_of_lt _ := rfl

end

namespace Sink

variable {room : Nat} {text : String}

/-- A text that an empty sink has room for is taken whole. -/
theorem write_of_le (refusal : WriteError) (h : (Utf8.encode text).length ≤ room) :
    (ofRoom? (some room) refusal).write text =
      (.ok (), ⟨some (room - (Utf8.encode text).length), refusal, (Utf8.encode text).toArray⟩) := by
  simp [write, Outlet.put, Outlet.holding, ofRoom?, h, List.take_of_length_le h]

/-- A text that an empty sink has no room for is cut, and leaves no room. -/
theorem write_of_lt (refusal : WriteError) (h : room < (Utf8.encode text).length) :
    (ofRoom? (some room) refusal).write text =
      (.error refusal, ⟨some 0, refusal, ((Utf8.encode text).take room).toArray⟩) := by
  have hnot : ¬ (Utf8.encode text).length ≤ room := Nat.not_le.mpr h
  have hfull : room - (Utf8.encode text).length = 0 := Nat.sub_eq_zero_of_le (Nat.le_of_lt h)
  simp [write, Outlet.put, Outlet.holding, ofRoom?, hnot, hfull]

/-- A text is taken whole, or cut to the room. -/
theorem cutTo_write (room : Nat) (refusal : WriteError) (text : String) :
    CutTo room refusal (Utf8.encode text) () ((ofRoom? (some room) refusal).write text).1
      ((ofRoom? (some room) refusal).write text).2.taken := by
  rcases Nat.lt_or_ge room (Utf8.encode text).length with hlt | hle
  · rw [write_of_lt refusal hlt]
    exact cutTo_of_lt hlt
  · rw [write_of_le refusal hle]
    exact cutTo_of_le hle

end Sink

/-! ## Listings -/

/-- The bytes of a listing: those of the entries of all lexemes before the first end of
text. -/
def listingBytes (showSpans : Bool) (lexemes : List Lexeme) : List UInt8 :=
  (lexemes.takeWhile fun l => !l.isEof).flatMap fun l => Utf8.encode (l.entry showSpans)

theorem encode_listing (showSpans : Bool) (lexemes : List Lexeme) :
    Utf8.encode (listing showSpans lexemes) = listingBytes showSpans lexemes := by
  rw [listing, Utf8.encode_join, entries, List.flatMap_map]
  rfl

/-- A sink without bound takes the whole listing. -/
theorem writeListing_unbounded (showSpans : Bool) (refusal : WriteError)
    (lexemes : List Lexeme) :
    (Sink.ofRoom? none refusal).writeListing showSpans lexemes =
      (.ok (), ⟨none, refusal, (listingBytes showSpans lexemes).toArray⟩) := by
  rw [Sink.writeListing_eq_write, Sink.write_unbounded rfl, encode_listing]
  simp [Outlet.holding, Sink.ofRoom?]

/-- A listing is taken whole, or cut to the room, however its pieces lie. -/
theorem cutTo_writeListing (showSpans : Bool) (room : Nat) (refusal : WriteError)
    (lexemes : List Lexeme) :
    CutTo room refusal (listingBytes showSpans lexemes) ()
      ((Sink.ofRoom? (some room) refusal).writeListing showSpans lexemes).1
      ((Sink.ofRoom? (some room) refusal).writeListing showSpans lexemes).2.taken := by
  rw [Sink.writeListing_eq_write, ← encode_listing]
  exact Sink.cutTo_write room refusal (listing showSpans lexemes)

/-! ## Scripts -/

namespace Script

variable {showSpans : Bool} {room : Nat} {source : String}

/-- A script whose listing fits is checked. -/
theorem run_of_le (refusal : WriteError) (path : String)
    (h : (listingBytes showSpans (lexemes source)).length ≤ room) :
    run (.ofRoom? (some room) refusal) path source showSpans =
      { sink :=
          ⟨some (room - (listingBytes showSpans (lexemes source)).length), refusal,
            (listingBytes showSpans (lexemes source)).toArray⟩
        illegal := .ok ((lexemes source).countP Lexeme.isIllegal)
        complaints := Outlet.unbounded.holding (diagnose path source (lexemes source)) } := by
  rw [← encode_listing] at h ⊢
  simp only [run, Sink.writeListing_eq_write, Sink.write_of_le refusal h,
    Outlet.put_unbounded Outlet.room?_unbounded]

/-- A script whose listing does not fit is not checked. -/
theorem run_of_lt (refusal : WriteError) (path : String)
    (h : room < (listingBytes showSpans (lexemes source)).length) :
    run (.ofRoom? (some room) refusal) path source showSpans =
      { sink := ⟨some 0, refusal, ((listingBytes showSpans (lexemes source)).take room).toArray⟩
        illegal := .error refusal
        complaints := .unbounded } := by
  rw [← encode_listing] at h ⊢
  rw [run, Sink.writeListing_eq_write, Sink.write_of_lt refusal h]

end Script

/-- A listing is taken whole or cut to the room.  A script ends in the same way: with as
many diagnostics as it has illegal lexemes if its listing was taken whole, and with none
if it was cut. -/
theorem listing_cut_to_room (showSpans : Bool) (room : Nat) (refusal : WriteError) :
    (∀ lexemes : List Lexeme,
      (Sink.ofRoom? none refusal).writeListing showSpans lexemes =
          (.ok (), ⟨none, refusal, (listingBytes showSpans lexemes).toArray⟩) ∧
        CutTo room refusal (listingBytes showSpans lexemes) ()
          ((Sink.ofRoom? (some room) refusal).writeListing showSpans lexemes).1
          ((Sink.ofRoom? (some room) refusal).writeListing showSpans lexemes).2.taken) ∧
      ∀ path source : String,
        CutTo room refusal (listingBytes showSpans (lexemes source))
            ((lexemes source).filter Lexeme.isIllegal).length
            (Script.run (.ofRoom? (some room) refusal) path source showSpans).illegal
            (Script.run (.ofRoom? (some room) refusal) path source showSpans).sink.taken ∧
          (Script.run (.ofRoom? (some room) refusal) path source showSpans).diagnostics =
            if (listingBytes showSpans (lexemes source)).length ≤ room then
              ((lexemes source).filter Lexeme.isIllegal).map
                (Lexeme.diagnostic path source.toList)
            else [] := by
  constructor
  · intro lexemes
    exact ⟨writeListing_unbounded showSpans refusal lexemes,
      cutTo_writeListing showSpans room refusal lexemes⟩
  · intro path source
    rcases Nat.lt_or_ge room (listingBytes showSpans (lexemes source)).length with hlt | hle
    · rw [Script.run_of_lt refusal path hlt, if_neg (Nat.not_le.mpr hlt)]
      exact ⟨cutTo_of_lt hlt, rfl⟩
    · rw [Script.run_of_le refusal path hle, if_pos hle, List.countP_eq_length_filter,
        ScriptResult.diagnostics, Outlet.toList_taken_holding]
      exact ⟨cutTo_of_le hle, rfl⟩

/-- Room can end inside a character: of the two bytes of this one, the first is taken. -/
example :
    (Sink.ofRoom? (some 23)).writeListing false [⟨⟨.illegal, "é"⟩, ⟨0, 2, 1⟩⟩] =
      (.error .limitReached,
        ⟨some 0, .limitReached, (Utf8.encode "\x7bType:ILLEGAL Literal:").toArray.push 0xC3⟩) := by
  rfl

end MonkeyTokens
