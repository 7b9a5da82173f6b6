import MonkeyTokens.Proofs.RegisterReading
import MonkeyTokens.Proofs.Replay

/-!
# What registers hold

Whatever is asked of a scanner, and in whatever order, its registers never disagree with
its text: the character, the offset after it and the line are those at the position, and
the position is a boundary between characters.  Where it stands and whether it is finished
is told by what was read: it stands behind the lexeme that was read last, and it is
finished once the sequence has yielded the end.

Main results:

- Theorem `Accounts.pulls`: what a scanner accounts for after any pulls.
- Theorem `Registers.answers?_registers`: registers answer any pulls like the scanner.
- Theorem `registers_behind_pulls`: what registers hold after any pulls.
-/

namespace MonkeyTokens

open Dialogue

/-! ## What is read for an answer -/

/-- A lexeme that was read, and whether it was yielded as an element of the sequence. -/
structure Event where
  lexeme : Lexeme
  yielded : Bool
  deriving DecidableEq, Repr

namespace Scanner

/-- The scanner behind a pull. -/
def behind (s : Scanner) : Pull → Scanner
  | .token => s.nextToken.2
  | .lexeme => s.nextLexeme.2
  | .next => s.next?.2
  | .nth n => (s.nth n).2
  | .take n => (s.take n).2

/-- What is read for the answer to a pull.  To find an element of the sequence, all that
precede it are yielded as well. -/
def events (s : Scanner) : Pull → List Event
  | .token => [⟨s.nextLexeme.1, false⟩]
  | .lexeme => [⟨s.nextLexeme.1, false⟩]
  | .next => (s.take 1).1.map fun l => ⟨l, true⟩
  | .nth n => (s.take (n + 1)).1.map fun l => ⟨l, true⟩
  | .take n => (s.take n).1.map fun l => ⟨l, true⟩

/-- What is read for the answers to a list of pulls. -/
def log : Scanner → List Pull → List Event
  | _, [] => []
  | s, p :: pulls => s.events p ++ (s.behind p).log pulls

/-- The next element is what is taken if one element is. -/
theorem next?_eq_take (s : Scanner) : s.next? = ((s.take 1).1.head?, (s.take 1).2) := by
  rw [take]
  rcases s.next? with ⟨element, s'⟩
  cases element <;> rfl

/-- An element of the sequence is the last of those that are taken with it. -/
theorem nth_eq_take (n : Nat) (s : Scanner) :
    s.nth n = ((s.take (n + 1)).1[n]?, (s.take (n + 1)).2) := by
  induction n generalizing s with
  | zero =>
    rw [nth, next?_eq_take, List.head?_eq_getElem?]
  | succ n ih =>
    rw [nth, take]
    rcases s.next? with ⟨element, s'⟩
    cases element with
    | none => rfl
    | some l =>
      dsimp only
      rw [ih]
      rfl

/-- Nothing is taken of a sequence that has ended. -/
theorem take_of_finished {s : Scanner} (h : s.finished = true) (n : Nat) : s.take n = ([], s) := by
  cases n with
  | zero => rfl
  | succ n => simp [take, next?, h]

/-- Of a sequence that has not ended, the next lexeme is taken and then others. -/
theorem take_succ {s : Scanner} (h : s.finished = false) (n : Nat) :
    s.take (n + 1) = (s.nextLexeme.1 :: (s.next?.2.take n).1, (s.next?.2.take n).2) := by
  simp [take, next?, h]

theorem behind_next (s : Scanner) : s.behind .next = (s.take 1).2 :=
  congrArg Prod.snd s.next?_eq_take

theorem behind_nth (n : Nat) (s : Scanner) : s.behind (.nth n) = (s.take (n + 1)).2 :=
  congrArg Prod.snd (s.nth_eq_take n)

/-- A pull is answered, and the scanner is left behind it. -/
theorem answer_snd (s : Scanner) (p : Pull) : (answer s p.request).2 = some (s.behind p) := by
  cases p <;> rfl

/-- A list of pulls leaves the scanner behind the last of them. -/
theorem after_pulls (s : Scanner) (pulls : List Pull) :
    after (some s) (pulls.map Pull.request) = some (pulls.foldl behind s) := by
  induction pulls generalizing s with
  | nil => rfl
  | cons p pulls ih =>
    rw [List.map_cons, after, List.foldl_cons, answer?, answer_snd, List.foldl_cons]
    exact ih (s.behind p)

end Scanner

/-! ## What a scanner accounts for -/

/-- The offset behind the lexeme that was read last, or the start of the text. -/
def lastStop (log : List Event) : Nat :=
  (log.getLast?.map fun e => e.lexeme.span.stop).getD 0

theorem lastStop_append_singleton (log : List Event) (e : Event) :
    lastStop (log ++ [e]) = e.lexeme.span.stop := by
  simp [lastStop]

/-- A scanner stands behind the lexeme that was read last, and it is finished once the
sequence has yielded the end.  Then nothing is left to read. -/
structure Accounts (s : Scanner) (log : List Event) : Prop where
  position_eq : s.position = lastStop log
  finished_iff : s.finished = true ↔ ∃ e ∈ log, e.yielded = true ∧ e.lexeme.isEof = true
  rest_eq_nil : s.finished = true → s.cursor.rest = []

theorem accounts_ofSource (source : String) : Accounts (.ofSource source) [] := by
  refine ⟨rfl, ?_, ?_⟩ <;> simp [Scanner.ofSource]

/-- A lexeme ends where the cursor behind it stands. -/
theorem Cursor.stop_next (c : Cursor) : c.next.1.span.stop = c.next.2.offset := by
  rcases c.blank_or_ahead with hgap | ⟨gap, m, hahead⟩
  · rw [next_of_isGap hgap]
    rfl
  · rw [next_of_ahead hahead]
    exact stop_lexemeAfter ..

/-- Nothing is left to read behind the end. -/
theorem Cursor.rest_next_of_isEof {c : Cursor} (h : c.next.1.isEof = true) :
    c.next.2.rest = [] := by
  rw [next_of_isGap (isEof_next_iff.mp h)]
  rfl

/-- If nothing is left to read, nothing is left behind the next lexeme either. -/
theorem Cursor.rest_next_of_rest {c : Cursor} (h : c.rest = []) : c.next.2.rest = [] := by
  rw [next_of_isGap (h ▸ isGap_nil)]
  rfl

namespace Accounts

variable {s : Scanner} {log : List Event}

/-- A lexeme that is asked for directly does not finish the scanner. -/
theorem lexeme (h : Accounts s log) :
    Accounts s.nextLexeme.2 (log ++ [⟨s.nextLexeme.1, false⟩]) := by
  refine ⟨?_, ?_, ?_⟩
  · rw [lastStop_append_singleton]
    exact s.cursor.stop_next.symm
  · have hfinished : s.nextLexeme.2.finished = s.finished := rfl
    simpa [hfinished] using h.finished_iff
  · intro hfinished
    exact Cursor.rest_next_of_rest (h.rest_eq_nil hfinished)

/-- An element that is yielded finishes the scanner if it is the end. -/
theorem element (h : Accounts s log) (hmore : s.finished = false) :
    Accounts s.next?.2 (log ++ [⟨s.nextLexeme.1, true⟩]) := by
  have hnext : s.next?.2 = { s.nextLexeme.2 with finished := s.nextLexeme.1.isEof } := by
    rw [Scanner.next?, if_neg (by simp [hmore])]
  have hnone : ¬ ∃ e ∈ log, e.yielded = true ∧ e.lexeme.isEof = true := by
    rw [← h.finished_iff, hmore]
    exact Bool.false_ne_true
  rw [hnext]
  refine ⟨?_, ?_, ?_⟩
  · rw [lastStop_append_singleton]
    exact s.cursor.stop_next.symm
  · constructor
    · intro heof
      exact ⟨_, List.mem_append_right _ (List.mem_singleton_self _), rfl, heof⟩
    · rintro ⟨e, he, hyielded, heof⟩
      rcases List.mem_append.mp he with he | he
      · exact absurd ⟨e, he, hyielded, heof⟩ hnone
      · rw [List.mem_singleton.mp he] at heof
        exact heof
  · exact Cursor.rest_next_of_isEof

theorem take (n : Nat) (h : Accounts s log) :
    Accounts (s.take n).2 (log ++ (s.take n).1.map fun l => ⟨l, true⟩) := by
  induction n generalizing s log with
  | zero => simpa [Scanner.take] using h
  | succ n ih =>
    cases hfinished : s.finished with
    | true =>
      rw [Scanner.take_of_finished hfinished]
      simpa using h
    | false =>
      have hlater := ih (h.element hfinished)
      rw [Scanner.take_succ hfinished]
      simpa using hlater

theorem pull (p : Pull) (h : Accounts s log) : Accounts (s.behind p) (log ++ s.events p) := by
  cases p with
  | token => exact h.lexeme
  | lexeme => exact h.lexeme
  | next =>
    rw [Scanner.behind_next]
    exact h.take 1
  | nth n =>
    rw [Scanner.behind_nth]
    exact h.take (n + 1)
  | take n => exact h.take n

/-- What a scanner accounts for after any pulls. -/
theorem pulls (pulls : List Pull) (h : Accounts s log) :
    Accounts (pulls.foldl Scanner.behind s) (log ++ s.log pulls) := by
  induction pulls generalizing s log with
  | nil => simpa [Scanner.log] using h
  | cons p pulls ih =>
    rw [List.foldl_cons, Scanner.log, ← List.append_assoc]
    exact ih (h.pull p)

end Accounts

/-! ## Pulls from registers -/

namespace Registers

/-- What registers show of themselves. -/
def snapshot (r : Registers) : Snapshot where
  position := r.position
  readPosition := r.readPosition
  current? := r.current?
  line := r.line
  finished := r.finished

/-- The answer to a pull, and the registers behind it. -/
def pull? (r : Registers) : Pull → Option (Answer × Registers)
  | .token => r.nextLexeme?.map fun (l, r) => (.token l.token, r)
  | .lexeme => r.nextLexeme?.map fun (l, r) => (.lexeme l, r)
  | .next => r.nextElement?.map fun (l?, r) => (.element l?, r)
  | .nth n => (r.nth? n).map fun (l?, r) => (.element l?, r)
  | .take n => (r.take? n).map fun (lexemes, r) => (.elements lexemes, r)

/-- The answers to a list of pulls, and the registers behind them. -/
def answers? : Registers → List Pull → Option (List Answer × Registers)
  | r, [] => some ([], r)
  | r, p :: pulls =>
    (r.pull? p).bind fun (a, r) => (answers? r pulls).map fun (later, r) => (a :: later, r)

/-- Registers agree with their text, and with what was read from it. -/
structure Sound (r : Registers) (log : List Event) : Prop where
  position_le : r.position ≤ Utf8.width r.source.toList
  boundary : (Utf8.splitAt? r.position r.source.toList).isSome = true
  position_eq : r.position = lastStop log
  current?_eq : r.current? = Utf8.charAt? r.source r.position
  current?_eq_none_iff : r.current? = none ↔ r.position = Utf8.width r.source.toList
  readPosition_of_some : ∀ c, r.current? = some c → r.readPosition = r.position + c.utf8Size
  readPosition_of_none : r.current? = none → r.readPosition = Utf8.width r.source.toList + 1
  line_eq : Utf8.lineAt? r.source r.position = some r.line
  finished_iff : r.finished = true ↔ ∃ e ∈ log, e.yielded = true ∧ e.lexeme.isEof = true
  current?_of_finished : r.finished = true → r.current? = none

variable {source : String} {s : Scanner} {log : List Event}

/-- The first move primes the registers with the first character of the text. -/
theorem ofSource_eq (source : String) :
    ofSource source = (Scanner.ofSource source).registers source := by
  have hfirst : Utf8.charAt? source 0 = (Scanner.ofSource source).current? :=
    (Cursor.within_atStart source).charAt?_offset
  simp only [ofSource, advance, hfirst, Scanner.registers, Scanner.readPosition_eq]
  rfl

theorem within_take (n : Nat) (hc : s.cursor.Within source) :
    (s.take n).2.cursor.Within source := by
  induction n generalizing s with
  | zero => exact hc
  | succ n ih =>
    have hnext := within_next? hc
    rw [Scanner.take]
    rcases hs : s.next? with ⟨element, s'⟩
    rw [hs] at hnext
    cases element with
    | none => exact hnext
    | some l => exact ih hnext

/-- A scanner does not leave its text by answering a pull. -/
theorem within_behind (p : Pull) (hc : s.cursor.Within source) :
    (s.behind p).cursor.Within source := by
  cases p with
  | token => exact within_next hc
  | lexeme => exact within_next hc
  | next => exact within_next? hc
  | nth n =>
    rw [Scanner.behind_nth]
    exact within_take (n + 1) hc
  | take n => exact within_take n hc

theorem within_pulls (pulls : List Pull) (hc : s.cursor.Within source) :
    (pulls.foldl Scanner.behind s).cursor.Within source := by
  induction pulls generalizing s with
  | nil => exact hc
  | cons p pulls ih => exact ih (within_behind p hc)

/-- A pull is answered like the scanner does. -/
theorem pull?_registers (p : Pull) (hc : s.cursor.Within source) :
    (s.registers source).pull? p =
      some ((answer s p.request).1, (s.behind p).registers source) := by
  cases p with
  | token =>
    rw [pull?, nextLexeme?_registers hc]
    rfl
  | lexeme =>
    rw [pull?, nextLexeme?_registers hc]
    rfl
  | next =>
    rw [pull?, nextElement?_registers hc]
    rfl
  | nth n =>
    rw [pull?, nth?_registers n hc]
    rfl
  | take n =>
    rw [pull?, take?_registers n hc]
    rfl

/-- Any pulls are answered like the scanner does. -/
theorem answers?_registers (pulls : List Pull) (hc : s.cursor.Within source) :
    (s.registers source).answers? pulls =
      some (answers (some s) (pulls.map Pull.request),
        (pulls.foldl Scanner.behind s).registers source) := by
  induction pulls generalizing s with
  | nil => rfl
  | cons p pulls ih =>
    rw [answers?, pull?_registers p hc, Option.bind_some]
    dsimp only
    rw [ih (within_behind p hc), List.map_cons, answers, answer?, Scanner.answer_snd]
    rfl

/-- The registers of a scanner within its text are sound. -/
theorem sound_registers (hc : s.cursor.Within source) (h : Accounts s log) :
    (s.registers source).Sound log := by
  have hwidth : s.position + Utf8.width s.cursor.rest = Utf8.width source.toList :=
    hc.offset_add_width
  have hnone : s.current? = none ↔ s.position = Utf8.width source.toList := by
    rw [Scanner.current?, List.head?_eq_none_iff, ← Utf8.width_eq_zero_iff]
    omega
  have hsplit : Utf8.splitAt? s.position source.toList ≠ none := by
    have hline := hc.lineAt?_offset
    intro hsplit
    rw [Utf8.lineAt?, show s.cursor.offset = s.position from rfl, hsplit] at hline
    cases hline
  refine
    { position_le := ?_
      boundary := ?_
      position_eq := h.position_eq
      current?_eq := hc.charAt?_offset.symm
      current?_eq_none_iff := hnone
      readPosition_of_some := ?_
      readPosition_of_none := ?_
      line_eq := hc.lineAt?_offset
      finished_iff := h.finished_iff
      current?_of_finished := ?_ }
  · exact Nat.le.intro hwidth
  · exact Option.isSome_iff_ne_none.mpr hsplit
  · intro c hcurrent
    have hcurrent : s.current? = some c := hcurrent
    change s.readPosition = s.position + c.utf8Size
    rw [Scanner.readPosition_eq, hcurrent]
    rfl
  · intro hcurrent
    have hcurrent : s.current? = none := hcurrent
    change s.readPosition = Utf8.width source.toList + 1
    rw [Scanner.readPosition_eq, hcurrent, hnone.mp hcurrent]
    rfl
  · intro hfinished
    exact congrArg List.head? (h.rest_eq_nil hfinished)

end Registers

/-- Registers that are asked any pulls answer like a new scanner, show what it shows, and
agree with the text and with what was read from it. -/
theorem registers_behind_pulls (source : String) (pulls : List Pull) :
    ∃ s r,
      after (some (.ofSource source)) (pulls.map Pull.request) = some s ∧
        (Registers.ofSource source).answers? pulls =
          some (answers (some (.ofSource source)) (pulls.map Pull.request), r) ∧
        r.source = source ∧ r.snapshot = snapshot s ∧
        r.Sound ((Scanner.ofSource source).log pulls) := by
  have hstart : (Scanner.ofSource source).cursor.Within source := Cursor.within_atStart source
  have hanswers := Registers.answers?_registers pulls hstart
  have hwithin := Registers.within_pulls pulls hstart
  have haccounts := (accounts_ofSource source).pulls pulls
  rw [← Registers.ofSource_eq] at hanswers
  exact ⟨_, _, Scanner.after_pulls _ pulls, hanswers, rfl, rfl,
    Registers.sound_registers hwithin haccounts⟩

end MonkeyTokens
