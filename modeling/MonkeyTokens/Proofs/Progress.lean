import MonkeyTokens.Proofs.CursorInvariant
import MonkeyTokens.Proofs.FiniteRuns

/-!
# Progress

The ink of a text is its characters that are no blanks.  Every lexeme but the end takes up
as much ink as its literal has characters, and no ink is passed over between lexemes.  So
the ink that is left bounds how many lexemes are still to come, whatever was asked of a
scanner before.  Once there is none left, the end is read, and it is read again with every
later call, which changes nothing any more.

Main results:

- Theorem `Cursor.inkCount_next`: a lexeme takes up as much ink as its literal is long.
- Theorem `Cursor.length_lexemes_le`: the ink that is left bounds the lexemes to come.
- Theorem `Cursor.Reads.next_of_isEof`: behind an end that was read, it is read again.
- Theorem `Scanner.reads_log`: whatever is asked of a scanner, it reads one lexeme after
  the other.
- Theorem `progress_behind_pulls`: registers make progress and come to an end after any
  pulls.
-/

namespace MonkeyTokens

open Dialogue

/-! ## Ink -/

/-- The number of characters that are no blanks. -/
def inkCount (text : List Char) : Nat :=
  text.countP fun c => c ∉ blankChars

/-- The number of characters from an offset on that are no blanks. -/
def inkFrom? (source : String) (offset : Nat) : Option Nat :=
  (Utf8.splitAt? offset source.toList).map fun parts => inkCount parts.2

theorem inkCount_append (a b : List Char) : inkCount (a ++ b) = inkCount a + inkCount b :=
  List.countP_append

/-- Blanks have no ink. -/
theorem inkCount_of_isGap {gap : List Char} (h : IsGap gap) : inkCount gap = 0 := by
  rw [inkCount, List.countP_eq_zero]
  intro c hc
  simpa using h c hc

/-- A literal is all ink. -/
theorem inkCount_of_fits {k : Kind} {text : List Char} (h : k.Fits text) :
    inkCount text = text.length := by
  rw [inkCount, List.countP_eq_length]
  intro c hc
  exact decide_eq_true (h.not_mem_blankChars hc)

/-- Ink takes up bytes. -/
theorem inkCount_le_width (text : List Char) : inkCount text ≤ Utf8.width text :=
  Nat.le_trans List.countP_le_length (Utf8.length_le_width text)

namespace Cursor

variable {c behind : Cursor} {source : String} {l : Lexeme} {lexemes : List Lexeme}

/-- The ink from the offset of a cursor on is that of what is left to read. -/
theorem Within.inkFrom?_offset (h : c.Within source) :
    inkFrom? source c.offset = some (inkCount c.rest) := by
  rcases h with ⟨before, hsource, hoffset, -⟩
  rw [inkFrom?, hsource, hoffset, Utf8.splitAt?_width]
  rfl

/-! ## One lexeme -/

@[simp]
theorem length_literal_lexemeAfter (c : Cursor) (gap : List Char) (m : Munch) :
    (c.lexemeAfter gap m).token.literal.length = m.text.length :=
  String.length_ofList

/-- A lexeme takes up as much ink as its literal is long, and passes no other. -/
theorem inkCount_next (h : c.next.1.isEof = false) :
    inkCount c.rest = inkCount c.next.2.rest + c.next.1.token.literal.length := by
  rcases exists_ahead h with ⟨gap, m, hahead⟩
  rw [next_of_ahead hahead, length_literal_lexemeAfter, behind, pass_rest, hahead.rest_eq,
    inkCount_append, inkCount_append, inkCount_of_isGap hahead.isGap,
    inkCount_of_fits hahead.maximal.1]
  omega

/-- A lexeme has a literal. -/
theorem length_literal_pos (h : c.next.1.isEof = false) :
    0 < c.next.1.token.literal.length := by
  rcases exists_ahead h with ⟨gap, m, hahead⟩
  rw [next_of_ahead hahead, length_literal_lexemeAfter]
  exact List.length_pos_iff.mpr hahead.maximal.1.ne_nil

/-- A lexeme moves the offset on. -/
theorem offset_lt_next (h : c.next.1.isEof = false) : c.offset < c.next.2.offset := by
  rcases exists_ahead h with ⟨gap, m, hahead⟩
  have hwidth := mt Utf8.width_eq_zero_iff.mp hahead.maximal.1.ne_nil
  rw [next_of_ahead hahead, behind, pass_offset, Utf8.width_append]
  omega

/-! ## One lexeme after the other -/

/-- The ink that is left bounds the lexemes to come, besides the end. -/
theorem length_lexemes_le (c : Cursor) : c.lexemes.length ≤ inkCount c.rest + 1 := by
  fun_induction Cursor.lexemes c with
  | case1 c heof => exact Nat.le_add_left 1 _
  | case2 c hmore _ ih =>
    have hproper : c.next.1.isEof = false := Bool.eq_false_iff.mpr hmore
    have hink := inkCount_next hproper
    have hpos := length_literal_pos hproper
    rw [List.length_cons]
    omega

/-- Lexemes that are read one after the other, and the cursor behind them. -/
inductive Reads : Cursor → List Lexeme → Cursor → Prop
  | nil {c : Cursor} : Reads c [] c
  | cons {c behind : Cursor} {later : List Lexeme} (hlater : Reads c.next.2 later behind) :
      Reads c (c.next.1 :: later) behind

theorem Reads.append {middle : Cursor} {first second : List Lexeme}
    (hfirst : Reads c first middle) (hsecond : Reads middle second behind) :
    Reads c (first ++ second) behind := by
  induction hfirst with
  | nil => exact hsecond
  | cons _ ih => exact Reads.cons (ih hsecond)

/-- A cursor that is not moved by reading a lexeme is not moved by reading more. -/
theorem Reads.eq_of_next (h : Reads c lexemes behind) (hstay : c.next.2 = c) : behind = c := by
  induction h with
  | nil => rfl
  | cons _ ih =>
    rw [hstay] at ih
    exact ih hstay

/-- Behind an end that was read, it is read again, and the cursor stays where it is. -/
theorem Reads.next_of_isEof (h : Reads c lexemes behind) (hl : l ∈ lexemes)
    (heof : l.isEof = true) : behind.next = (l, behind) := by
  induction h with
  | nil => cases hl
  | @cons c behind later hlater ih =>
    rcases List.mem_cons.mp hl with rfl | hl
    · -- The cursor already stands behind the end, and nothing that was read later moved it.
      have hagain := next_behind_eof heof
      rw [hlater.eq_of_next (congrArg Prod.snd hagain), hagain]
    · exact ih hl

end Cursor

/-! ## Whatever is asked -/

namespace Scanner

/-- The elements that are taken of the sequence are read one after the other. -/
theorem reads_take (n : Nat) (s : Scanner) :
    s.cursor.Reads (s.take n).1 (s.take n).2.cursor := by
  induction n generalizing s with
  | zero => exact Cursor.Reads.nil
  | succ n ih =>
    cases hfinished : s.finished with
    | true =>
      rw [take_of_finished hfinished]
      exact Cursor.Reads.nil
    | false =>
      have hcursor : s.next?.2.cursor = s.cursor.next.2 := by
        rw [next?, if_neg (Bool.eq_false_iff.mp hfinished)]
        rfl
      have hlater := ih s.next?.2
      rw [hcursor] at hlater
      rw [take_succ hfinished]
      exact Cursor.Reads.cons hlater

theorem map_lexeme_yielded (lexemes : List Lexeme) :
    (lexemes.map fun l => Event.mk l true).map Event.lexeme = lexemes := by
  rw [List.map_map]
  exact List.map_id _

/-- What is read for an answer is read one lexeme after the other. -/
theorem reads_events (p : Pull) (s : Scanner) :
    s.cursor.Reads ((s.events p).map Event.lexeme) (s.behind p).cursor := by
  have htaken (n : Nat) :
      s.cursor.Reads (((s.take n).1.map fun l => Event.mk l true).map Event.lexeme)
        (s.take n).2.cursor := by
    rw [map_lexeme_yielded]
    exact s.reads_take n
  cases p with
  | token => exact Cursor.Reads.cons Cursor.Reads.nil
  | lexeme => exact Cursor.Reads.cons Cursor.Reads.nil
  | next =>
    rw [behind_next]
    exact htaken 1
  | nth n =>
    rw [behind_nth]
    exact htaken (n + 1)
  | take n => exact htaken n

/-- Whatever is asked of a scanner, it reads one lexeme after the other. -/
theorem reads_log (pulls : List Pull) (s : Scanner) :
    s.cursor.Reads ((s.log pulls).map Event.lexeme) (pulls.foldl behind s).cursor := by
  induction pulls generalizing s with
  | nil => exact Cursor.Reads.nil
  | cons p pulls ih =>
    rw [log, List.map_append, List.foldl_cons]
    exact (s.reads_events p).append (ih (s.behind p))

/-- A scanner that is asked for so many lexemes gives those that are left to it. -/
theorem answers_replicate_lexeme (s : Scanner) :
    answers (some s) (List.replicate s.cursor.lexemes.length .lexeme) =
      s.cursor.lexemes.map Answer.lexeme := by
  rcases s with ⟨c, finished⟩
  dsimp only
  fun_induction Cursor.lexemes c with
  | case1 c heof => rfl
  | case2 c hmore _ ih =>
    rw [List.length_cons, List.replicate_succ, answers, List.map_cons]
    exact congrArg (Answer.lexeme c.next.1 :: ·) ih

end Scanner

/-! ## Registers -/

namespace Registers

/-- What reading the lexeme `l` does to registers.  The position moves on, and the ink that
is left drops by the length of the literal; if there was none, the position is at the end
of the text. -/
structure Progress (r : Registers) (l : Lexeme) (behind : Registers) : Prop where
  position_lt : l.isEof = false → r.position < behind.position
  inkFrom?_eq : l.isEof = false →
    ∃ n, inkFrom? r.source behind.position = some n ∧
      inkFrom? r.source r.position = some (n + l.token.literal.length)
  inkFrom?_of_isEof : l.isEof = true → inkFrom? r.source r.position = some 0
  position_of_isEof : l.isEof = true → behind.position = Utf8.width r.source.toList

variable {source : String} {s : Scanner}

/-- A scanner within its text makes progress. -/
theorem progress_registers (hc : s.cursor.Within source) :
    Progress (s.registers source) s.nextLexeme.1 (s.nextLexeme.2.registers source) := by
  have hfront : inkFrom? source s.cursor.offset = some (inkCount s.cursor.rest) :=
    hc.inkFrom?_offset
  have hbehind : inkFrom? source s.cursor.next.2.offset =
      some (inkCount s.cursor.next.2.rest) := (within_next hc).inkFrom?_offset
  refine
    { position_lt := Cursor.offset_lt_next
      inkFrom?_eq := ?_
      inkFrom?_of_isEof := ?_
      position_of_isEof := ?_ }
  · intro h
    refine ⟨_, hbehind, ?_⟩
    exact hfront.trans (congrArg some (Cursor.inkCount_next h))
  · intro h
    have hgap : IsGap s.cursor.rest := Cursor.isEof_next_iff.mp h
    exact hfront.trans (congrArg some (inkCount_of_isGap hgap))
  · intro h
    have hwidth := (within_next hc).offset_add_width
    rw [Cursor.rest_next_of_isEof h] at hwidth
    exact hwidth

/-- Asked for one lexeme after the other, a scanner within its text comes to the end before
there were more lexemes than ink. -/
theorem exists_answers?_lexemes (hc : s.cursor.Within source) :
    ∃ proper last behind, proper.length ≤ inkCount s.cursor.rest ∧
      (∀ l ∈ proper, l.isEof = false) ∧ last.isEof = true ∧
      (s.registers source).answers? (List.replicate (proper.length + 1) .lexeme) =
        some ((proper ++ [last]).map .lexeme, behind) := by
  have hreading := reading_lexemes s.cursor
  have hbound := s.cursor.length_lexemes_le
  have hproper := hreading.isEof_of_mem_dropLast
  have hgiven : answers (some s)
      ((List.replicate s.cursor.lexemes.length Pull.lexeme).map Pull.request) =
        s.cursor.lexemes.map Answer.lexeme := by
    rw [List.map_replicate]
    exact s.answers_replicate_lexeme
  have hanswers := answers?_registers (List.replicate s.cursor.lexemes.length .lexeme) hc
  obtain ⟨proper, hlexemes⟩ : ∃ proper, s.cursor.lexemes = proper ++ [s.cursor.finish.endLexeme] :=
    ⟨_, hreading.eq_dropLast_append⟩
  rw [hgiven, hlexemes, List.length_append, List.length_singleton] at hanswers
  rw [hlexemes, List.dropLast_concat] at hproper
  rw [hlexemes, List.length_append, List.length_singleton] at hbound
  exact ⟨proper, _, _, Nat.le_of_add_le_add_right hbound, hproper, rfl, hanswers⟩

/-- A lexeme that does not move the cursor does not change the registers. -/
theorem nextLexeme?_of_next_eq (hc : s.cursor.Within source) {l : Lexeme}
    (hnext : s.cursor.next = (l, s.cursor)) :
    (s.registers source).nextLexeme? = some (l, s.registers source) := by
  rw [nextLexeme?_registers hc, Scanner.nextLexeme, hnext]

end Registers

/-- Registers that were asked any pulls make progress with the next lexeme, which they read
by a finite run.  The ink that is left bounds how many lexemes come before the end, and
draining comes to an end as well.  If the end was read before, it is read again and
the registers stay as they are. -/
theorem progress_behind_pulls (source : String) (pulls : List Pull) :
    ∃ s r ink,
      after (some (.ofSource source)) (pulls.map Pull.request) = some s ∧
        (Registers.ofSource source).answers? pulls =
          some (answers (some (.ofSource source)) (pulls.map Pull.request), r) ∧
        r.source = source ∧ r.snapshot = snapshot s ∧
        inkFrom? source r.position = some ink ∧ r.position + ink ≤ Utf8.width source.toList ∧
        (∃ l behind, r.LexemeRun l behind ∧ r.nextLexeme? = some (l, behind) ∧
          r.Progress l behind) ∧
        (∃ proper last behind, proper.length ≤ ink ∧ (∀ l ∈ proper, l.isEof = false) ∧
          last.isEof = true ∧
          r.answers? (List.replicate (proper.length + 1) .lexeme) =
            some ((proper ++ [last]).map .lexeme, behind)) ∧
        r.DrainRun s.drain ∧
        ∀ e ∈ (Scanner.ofSource source).log pulls, e.lexeme.isEof = true →
          r.nextLexeme? = some (e.lexeme, r) := by
  have hstart : (Scanner.ofSource source).cursor.Within source := Cursor.within_atStart source
  have hanswers := Registers.answers?_registers pulls hstart
  have hwithin := Registers.within_pulls pulls hstart
  rw [← Registers.ofSource_eq] at hanswers
  refine ⟨_, _, _, Scanner.after_pulls _ pulls, hanswers, rfl, rfl, hwithin.inkFrom?_offset, ?_,
    ⟨_, _, Registers.lexemeRun_registers hwithin, Registers.nextLexeme?_registers hwithin,
      Registers.progress_registers hwithin⟩,
    Registers.exists_answers?_lexemes hwithin, Registers.drainRun_registers hwithin, ?_⟩
  · rw [← hwithin.offset_add_width]
    exact Nat.add_le_add_left (inkCount_le_width _) _
  · intro e he heof
    have hreads := Scanner.reads_log pulls (.ofSource source)
    exact Registers.nextLexeme?_of_next_eq hwithin
      (hreads.next_of_isEof (List.mem_map_of_mem he) heof)

/-- The end behind two lexemes and blanks, asked for directly, is read again. -/
theorem end_again_behind_blanks :
    (⟨⟨.endOfText, ⟨5, 5, 2⟩⟩, false⟩ : Event) ∈
        (Scanner.ofSource "é= \n").log [.take 2, .token] ∧
      ∃ given r,
        (Registers.ofSource "é= \n").answers? [.take 2, .token] = some (given, r) ∧
          r.nextLexeme? = some (⟨.endOfText, ⟨5, 5, 2⟩⟩, r) := by
  have hread : (⟨⟨.endOfText, ⟨5, 5, 2⟩⟩, false⟩ : Event) ∈
      (Scanner.ofSource "é= \n").log [.take 2, .token] := by decide
  rcases progress_behind_pulls "é= \n" [.take 2, .token] with
    ⟨s, r, ink, -, hanswers, -, -, -, -, -, -, -, hend⟩
  exact ⟨hread, _, r, hanswers, hend _ hread rfl⟩

end MonkeyTokens
