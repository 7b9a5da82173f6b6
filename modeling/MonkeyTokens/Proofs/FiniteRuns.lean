import MonkeyTokens.Proofs.RegisterReading

/-!
# Finite runs of registers

The loops of a scanner in registers go on or stop by what stands in the registers that they
change.  Here such a loop is run turn by turn up to the turn at which it stops.  A run is
finite, so having one is to come to an end.  To read a lexeme is to run the loop over the
blanks and, for a word or a number, a second one; to drain a scanner is to read lexemes
until the end was yielded.

Main results:

- Theorem `Registers.loopRun_iff`: from whatever registers, a loop has exactly one run.
- Theorem `Registers.lexemeRun_iff`: a lexeme is read by a finite run, or it cannot be cut
  out of the text.
- Theorem `Registers.drainRun_registers`: draining a scanner within its text is a finite
  run as well.
-/

namespace MonkeyTokens

namespace Registers

/-! ## Runs -/

/-- A run of the loop that moves as long as the current character is one of those asked
for, up to the registers behind it. -/
inductive LoopRun (p : Char → Bool) : Registers → Registers → Prop
  | stop {r : Registers} (hstop : r.current?.any p = false) : LoopRun p r r
  | turn {r behind : Registers} (hgo : r.current?.any p = true)
      (hlater : LoopRun p r.advance behind) : LoopRun p r behind

/-- A run that reads the lexeme at the current character, which is no blank. -/
inductive ReadRun (front : Registers) : Lexeme → Registers → Prop
  | endOfText (hcurrent : front.current? = none) :
      ReadRun front
        ⟨.endOfText, ⟨Utf8.width front.source.toList, Utf8.width front.source.toList, front.line⟩⟩
        front
  | symbol {c : Char} {s : Symbol} {l : Lexeme} {behind : Registers}
      (hcurrent : front.current? = some c) (hsymbol : Symbol.ofChar? c = some s)
      (hcut : (front.symbol s).2.advance.lexeme? (.symbol (front.symbol s).1) front =
        some (l, behind)) :
      ReadRun front l behind
  | word {c : Char} {word : String} {l : Lexeme} {passed behind : Registers}
      (hcurrent : front.current? = some c) (hsymbol : Symbol.ofChar? c = none)
      (hword : isWordChar c = true) (hloop : LoopRun isWordChar front passed)
      (hslice : Utf8.slice? passed.source front.position passed.position = some word)
      (hcut : passed.lexeme? (.ofWord word) front = some (l, behind)) :
      ReadRun front l behind
  | number {c : Char} {l : Lexeme} {passed behind : Registers}
      (hcurrent : front.current? = some c) (hsymbol : Symbol.ofChar? c = none)
      (hword : isWordChar c = false) (hdigit : isDigitChar c = true)
      (hloop : LoopRun isDigitChar front passed)
      (hcut : passed.lexeme? .int front = some (l, behind)) :
      ReadRun front l behind
  | stray {c : Char} {l : Lexeme} {behind : Registers}
      (hcurrent : front.current? = some c) (hsymbol : Symbol.ofChar? c = none)
      (hword : isWordChar c = false) (hdigit : isDigitChar c = false)
      (hcut : front.advance.lexeme? .illegal front = some (l, behind)) :
      ReadRun front l behind

/-- A run that skips blanks and reads the lexeme behind them. -/
def LexemeRun (r : Registers) (l : Lexeme) (behind : Registers) : Prop :=
  ∃ front, LoopRun isBlank r front ∧ ReadRun front l behind

/-- A run that reads all elements that the sequence has left. -/
inductive DrainRun : Registers → List Lexeme → Prop
  | finished {r : Registers} (hfinished : r.finished = true) : DrainRun r []
  | element {r behind : Registers} {l : Lexeme} {later : List Lexeme}
      (hmore : r.finished = false) (hread : LexemeRun r l behind)
      (hlater : DrainRun { behind with finished := l.isEof } later) :
      DrainRun r (l :: later)

/-! ## Runs and results -/

variable {p : Char → Bool} {r front behind : Registers} {l : Lexeme}

/-- From whatever registers, a loop of moves comes to an end. -/
theorem loopRun_advanceWhile (p : Char → Bool) (r : Registers) :
    LoopRun p r (r.advanceWhile p) := by
  fun_induction advanceWhile p r with
  | case1 r hgo _ ih => exact LoopRun.turn hgo ih
  | case2 r hstop => exact LoopRun.stop (Bool.eq_false_iff.mpr hstop)

/-- From whatever registers, a loop has exactly one run. -/
theorem loopRun_iff : LoopRun p r behind ↔ r.advanceWhile p = behind := by
  constructor
  · intro h
    induction h with
    | stop hstop => exact advanceWhile_of_neg hstop
    | turn hgo _ ih => rw [advanceWhile_of_pos hgo, ih]
  · intro h
    subst h
    exact loopRun_advanceWhile p r

/-- What is read by a run is the result. -/
theorem ReadRun.read?_eq (h : ReadRun front l behind) : front.read? = some (l, behind) := by
  cases h with
  | endOfText hcurrent => rw [read?, hcurrent]
  | symbol hcurrent hsymbol hcut =>
    rw [read?, hcurrent]
    simp only [hsymbol]
    exact hcut
  | word hcurrent hsymbol hword hloop hslice hcut =>
    rw [read?, hcurrent]
    simp only [hsymbol, hword, if_true, loopRun_iff.mp hloop, hslice, Option.bind_some]
    exact hcut
  | number hcurrent hsymbol hword hdigit hloop hcut =>
    rw [read?, hcurrent]
    simp only [hsymbol, hword, hdigit, if_true, Bool.false_eq_true, if_false,
      loopRun_iff.mp hloop]
    exact hcut
  | stray hcurrent hsymbol hword hdigit hcut =>
    rw [read?, hcurrent]
    simp only [hsymbol, hword, hdigit, Bool.false_eq_true, if_false]
    exact hcut

/-- A result is read by a run. -/
theorem readRun_of_read? (h : front.read? = some (l, behind)) : ReadRun front l behind := by
  unfold read? at h
  cases hcurrent : front.current? with
  | none =>
    simp only [hcurrent, Option.some.injEq, Prod.mk.injEq] at h
    rcases h with ⟨rfl, rfl⟩
    exact ReadRun.endOfText hcurrent
  | some c =>
    simp only [hcurrent] at h
    cases hsymbol : Symbol.ofChar? c with
    | some s =>
      simp only [hsymbol] at h
      exact ReadRun.symbol hcurrent hsymbol h
    | none =>
      simp only [hsymbol] at h
      split at h
      · rename_i hword
        rcases Option.bind_eq_some_iff.mp h with ⟨word, hslice, hcut⟩
        exact ReadRun.word hcurrent hsymbol hword (loopRun_advanceWhile _ _) hslice hcut
      · rename_i hword
        split at h
        · rename_i hdigit
          exact ReadRun.number hcurrent hsymbol (Bool.eq_false_iff.mpr hword) hdigit
            (loopRun_advanceWhile _ _) h
        · rename_i hdigit
          exact ReadRun.stray hcurrent hsymbol (Bool.eq_false_iff.mpr hword)
            (Bool.eq_false_iff.mpr hdigit) h

/-- A lexeme is read by a finite run exactly if it can be cut out of the text. -/
theorem lexemeRun_iff : LexemeRun r l behind ↔ r.nextLexeme? = some (l, behind) := by
  constructor
  · intro h
    rcases h with ⟨front, hloop, hread⟩
    rw [nextLexeme?, loopRun_iff.mp hloop]
    exact hread.read?_eq
  · intro h
    exact ⟨_, loopRun_advanceWhile isBlank r, readRun_of_read? h⟩

/-! ## Runs of a scanner -/

variable {source : String} {s : Scanner}

/-- A scanner within its text reads the next lexeme by a finite run. -/
theorem lexemeRun_registers (hc : s.cursor.Within source) :
    (s.registers source).LexemeRun s.nextLexeme.1 (s.nextLexeme.2.registers source) :=
  lexemeRun_iff.mpr (nextLexeme?_registers hc)

/-- The lexemes from a cursor within its text are read by a finite run, one after the other
up to the end. -/
theorem drainRun_lexemes {c : Cursor} (hc : c.Within source) :
    (Scanner.registers ⟨c, false⟩ source).DrainRun c.lexemes := by
  fun_induction Cursor.lexemes c with
  | case1 c heof =>
    exact DrainRun.element rfl (lexemeRun_registers hc) (DrainRun.finished heof)
  | case2 c hmore _ ih =>
    refine DrainRun.element rfl (lexemeRun_registers hc) ?_
    rw [Bool.eq_false_iff.mpr hmore]
    exact ih (within_next (s := ⟨c, false⟩) hc)

/-- A scanner within its text is drained by a finite run. -/
theorem drainRun_registers (hc : s.cursor.Within source) :
    (s.registers source).DrainRun s.drain := by
  rw [Scanner.drain]
  split
  · rename_i hfinished
    exact DrainRun.finished hfinished
  · rename_i hmore
    rcases s with ⟨c, finished⟩
    obtain rfl : finished = false := Bool.eq_false_iff.mpr hmore
    exact drainRun_lexemes hc

end Registers

end MonkeyTokens
