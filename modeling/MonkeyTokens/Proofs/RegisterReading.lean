import MonkeyTokens.Proofs.Tokenization
import MonkeyTokens.Scanner.Registers

/-!
# Reading from registers

On the registers that a scanner within its text amounts to, every operation succeeds,
answers like the scanner, and leaves the registers that the scanner amounts to afterwards.
The offset that is kept one character ahead is always that of the character behind the
current one, so every move finds the next character, and what was passed over can be cut
out of the text.

Main results:

- Theorem `Registers.advance_registers`: moving by a character is passing over it.
- Theorem `Registers.advanceWhile_registers`: a loop of moves passes over a run of
  characters.
- Theorem `Registers.nextLexeme?_registers`: a lexeme is read like the scanner does.
- Theorems `Registers.nth?_registers` and `Registers.take?_registers`: so are the elements
  of the sequence.
-/

namespace MonkeyTokens

/-! ## The registers of a scanner -/

namespace Scanner

/-- The registers that a scanner of a text amounts to. -/
def registers (s : Scanner) (source : String) : Registers where
  source := source
  position := s.position
  readPosition := s.readPosition
  current? := s.current?
  line := s.line
  finished := s.finished

/-- The scanner behind `text`, with `rest` still to be read. -/
def pass (s : Scanner) (text rest : List Char) : Scanner :=
  { s with cursor := s.cursor.pass text rest }

theorem pass_pass (s : Scanner) (first second middle rest : List Char) :
    (s.pass first middle).pass second rest = s.pass (first ++ second) rest := by
  simp [pass]

theorem pass_nil {s : Scanner} {rest : List Char} (hrest : s.cursor.rest = rest) :
    s.pass [] rest = s := by
  subst hrest
  rfl

theorem readPosition_eq (s : Scanner) :
    s.readPosition = s.position + Registers.stride s.current? := by
  unfold readPosition
  cases s.current? <;> rfl

end Scanner

namespace Registers

variable {source : String} {s : Scanner} {x : Char} {rest : List Char}

/-! ## Moves -/

theorem current?_registers (hrest : s.cursor.rest = rest) :
    (s.registers source).current? = rest.head? :=
  congrArg List.head? hrest

/-- Moving by a character is passing over it. -/
theorem advance_registers (hc : s.cursor.Within source) (hrest : s.cursor.rest = x :: rest) :
    (s.registers source).advance = (s.pass [x] rest).registers source := by
  have hcurrent : s.current? = some x := by
    rw [Scanner.current?, hrest]
    rfl
  have hread : s.readPosition = (s.pass [x] rest).position := by
    rw [Scanner.readPosition_eq, hcurrent]
    rfl
  have hnext : Utf8.charAt? source (s.pass [x] rest).position = (s.pass [x] rest).current? :=
    (hc.pass hrest).charAt?_offset
  have hline : (if some x = some '\n' then s.line + 1 else s.line) =
      (s.pass [x] rest).line := by
    by_cases hx : x = '\n' <;> simp [hx, Scanner.line, Scanner.pass]
  simp only [advance, Scanner.registers, hcurrent, hread, hnext, hline,
    ← Scanner.readPosition_eq]
  rfl

theorem advanceWhile_of_pos {p : Char → Bool} {r : Registers} (h : r.current?.any p = true) :
    r.advanceWhile p = r.advance.advanceWhile p := by
  rw [advanceWhile, dif_pos h]

theorem advanceWhile_of_neg {p : Char → Bool} {r : Registers} (h : r.current?.any p = false) :
    r.advanceWhile p = r := by
  rw [advanceWhile, dif_neg (Bool.eq_false_iff.mp h)]

/-- A loop of moves passes over a run of characters. -/
theorem advanceWhile_registers (hc : s.cursor.Within source) (p : Char → Bool) :
    (s.registers source).advanceWhile p =
      (s.pass (s.cursor.rest.takeWhile p) (s.cursor.rest.dropWhile p)).registers source := by
  induction hrest : s.cursor.rest generalizing s with
  | nil =>
    have hstop : (s.registers source).current?.any p = false := by
      rw [current?_registers hrest]
      rfl
    rw [advanceWhile_of_neg hstop, List.takeWhile_nil, List.dropWhile_nil, Scanner.pass_nil hrest]
  | cons x rest ih =>
    by_cases hx : p x = true
    · have hgo : (s.registers source).current?.any p = true := by
        rw [current?_registers hrest]
        exact hx
      rw [advanceWhile_of_pos hgo, advance_registers hc hrest, ih (hc.pass hrest) rfl,
        Scanner.pass_pass, List.takeWhile_cons_of_pos hx, List.dropWhile_cons_of_pos hx,
        List.singleton_append]
    · have hstop : (s.registers source).current?.any p = false := by
        rw [current?_registers hrest]
        exact Bool.eq_false_iff.mpr hx
      rw [advanceWhile_of_neg hstop, List.takeWhile_cons_of_neg hx,
        List.dropWhile_cons_of_neg hx, Scanner.pass_nil hrest]

/-! ## Lexemes from registers -/

/-- What was passed over can be cut out of the text. -/
theorem slice?_registers (hc : s.cursor.Within source) {text : List Char}
    (hrest : s.cursor.rest = text ++ rest) :
    Utf8.slice? source (s.registers source).position
        ((s.pass text rest).registers source).position =
      some (String.ofList text) := by
  apply hc.slice?_offset.mpr
  rw [String.toList_ofList]
  exact ⟨rest, hrest, rfl⟩

/-- The lexeme of a munch, and the registers behind it. -/
theorem lexeme?_registers (hc : s.cursor.Within source) {m : Munch}
    (hrest : s.cursor.rest = m.text ++ m.rest) :
    ((s.pass m.text m.rest).registers source).lexeme? m.kind (s.registers source) =
      some (⟨⟨m.kind, String.ofList m.text⟩,
          ⟨s.position, (s.pass m.text m.rest).position, s.line⟩⟩,
        (s.pass m.text m.rest).registers source) := by
  have hslice := slice?_registers hc hrest
  rw [lexeme?]
  change (Utf8.slice? source _ _).map _ = _
  rw [hslice]
  rfl

variable {first : Char} {after : List Char}

/-- The next character is looked at without moving. -/
theorem peek?_registers (hc : s.cursor.Within source) (hrest : s.cursor.rest = first :: after) :
    (s.registers source).peek? = after.head? :=
  congrArg current? (advance_registers hc hrest)

/-- A symbol is read like its munch, up to the last move. -/
theorem symbol_registers (hc : s.cursor.Within source) (hrest : s.cursor.rest = first :: after)
    (k : Symbol) :
    Kind.symbol ((s.registers source).symbol k).1 = (munchSymbol k first after).kind ∧
      ((s.registers source).symbol k).2.advance =
        (s.pass (munchSymbol k first after).text (munchSymbol k first after).rest).registers
          source := by
  have hpeek := peek?_registers hc hrest
  have hadvance := advance_registers hc hrest
  by_cases hext : ∃ c ∈ after.head?, (Kind.symbol k).Extends c
  · rcases hext with ⟨c, hc', hext⟩
    rcases Kind.extends_symbol_iff.mp hext with ⟨hsome, rfl⟩
    rcases Option.isSome_iff_exists.mp hsome with ⟨t, hjoined⟩
    rcases List.head?_eq_some_iff.mp (Option.mem_def.mp hc') with ⟨rest, rfl⟩
    have hsymbol : (s.registers source).symbol k = (t, (s.registers source).advance) := by
      rw [symbol, hjoined, expect, hpeek]
      rfl
    rw [hsymbol, munchSymbol_of_joined? hjoined, hadvance]
    refine ⟨rfl, ?_⟩
    rw [advance_registers (hc.pass hrest) rfl, Scanner.pass_pass]
    rfl
  · have hstop : ∀ c ∈ after.head?, ¬ (Kind.symbol k).Extends c := by
      intro c hc' hext'
      exact hext ⟨c, hc', hext'⟩
    have hsymbol : (s.registers source).symbol k = (k, s.registers source) := by
      rw [symbol]
      cases hjoined : k.joined? with
      | none => rfl
      | some t =>
        have hne : ¬ after.head? = some '=' := by
          intro hhead
          exact hstop '=' hhead (Kind.extends_symbol_iff.mpr ⟨by rw [hjoined]; rfl, rfl⟩)
        simp only [expect, hpeek, if_neg hne]
    rw [hsymbol, munchSymbol_of_not_extends hstop]
    exact ⟨rfl, hadvance⟩

/-- A loop that begins at one of the characters asked for passes over it and the run behind
it. -/
theorem advanceWhile_registers_cons (hc : s.cursor.Within source)
    (hrest : s.cursor.rest = first :: after) {p : Char → Bool} (hp : p first = true) :
    (s.registers source).advanceWhile p =
      (s.pass (first :: after.takeWhile p) (after.dropWhile p)).registers source := by
  rw [advanceWhile_registers hc, hrest, List.takeWhile_cons_of_pos hp,
    List.dropWhile_cons_of_pos hp]

/-- A word is cut out of the text once more to look it up, which succeeds as well. -/
theorem slice?_registers_word (hc : s.cursor.Within source)
    (hrest : s.cursor.rest = first :: after) (p : Char → Bool) :
    Utf8.slice? source (s.registers source).position
        ((s.pass (first :: after.takeWhile p) (after.dropWhile p)).registers source).position =
      some (String.ofList (first :: after.takeWhile p)) := by
  apply slice?_registers hc
  rw [hrest, List.cons_append, List.takeWhile_append_dropWhile]

/-- At the end of the text, the end is read. -/
theorem read?_registers_nil (hc : s.cursor.Within source) (hrest : s.cursor.rest = []) :
    (s.registers source).read? =
      some (⟨.endOfText, ⟨s.position, s.position, s.line⟩⟩, s.registers source) := by
  have hstop : Utf8.width source.toList = s.position := by
    rw [← hc.offset_add_width, hrest]
    rfl
  have hcurrent : (s.registers source).current? = none := current?_registers hrest
  rw [read?, hcurrent]
  simp only [Scanner.registers, hstop]

/-- At a character, its munch is read. -/
theorem read?_registers_cons (hc : s.cursor.Within source)
    (hrest : s.cursor.rest = first :: after) :
    (s.registers source).read? =
      ((s.pass (munch first after).text (munch first after).rest).registers source).lexeme?
        (munch first after).kind (s.registers source) := by
  have hcurrent : (s.registers source).current? = some first := current?_registers hrest
  rw [read?, hcurrent]
  dsimp only
  cases hsymbol : Symbol.ofChar? first with
  | some k =>
    rcases symbol_registers hc hrest k with ⟨hkind, hlast⟩
    rw [munch_of_ofChar? hsymbol, ← hkind, ← hlast]
  | none =>
    by_cases hword : isWordChar first = true
    · have hmunch : munch first after =
          ⟨.ofWord (String.ofList (first :: after.takeWhile isWordChar)),
            first :: after.takeWhile isWordChar, after.dropWhile isWordChar⟩ := by
        simp only [munch, hword, if_true]
      rw [if_pos hword, advanceWhile_registers_cons hc hrest hword, hmunch]
      change (Utf8.slice? source _ _).bind _ = _
      rw [slice?_registers_word hc hrest, Option.bind_some]
    · rw [if_neg hword]
      by_cases hdigit : isDigitChar first = true
      · have hmunch : munch first after =
            ⟨.int, first :: after.takeWhile isDigitChar, after.dropWhile isDigitChar⟩ := by
          simp only [munch, hword, hdigit, if_true, if_false, Bool.false_eq_true]
        rw [if_pos hdigit, advanceWhile_registers_cons hc hrest hdigit, hmunch]
      · have hmunch : munch first after = ⟨.illegal, [first], after⟩ := by
          simp only [munch, hword, hdigit, hsymbol, if_false, Bool.false_eq_true]
        rw [if_neg hdigit, advance_registers hc hrest, hmunch]

/-- The lexeme at a scanner is read like the scanner does, if it has no blanks to skip. -/
theorem read?_registers (hc : s.cursor.Within source) :
    (s.registers source).read? =
      some (s.cursor.read.1,
        Scanner.registers { s with cursor := s.cursor.read.2 } source) := by
  cases hrest : s.cursor.rest with
  | nil =>
    have hread : s.cursor.read =
        (⟨.endOfText, ⟨s.cursor.offset, s.cursor.offset, s.cursor.line⟩⟩, s.cursor) := by
      rw [Cursor.read, hrest]
    rw [read?_registers_nil hc hrest, hread]
    rfl
  | cons first after =>
    have hsplit : s.cursor.rest = (munch first after).text ++ (munch first after).rest := by
      rw [munch_text_append_rest, hrest]
    rw [read?_registers_cons hc hrest, lexeme?_registers hc hsplit, Cursor.read, hrest]
    rfl

/-- Lexemes are read like the scanner does. -/
theorem nextLexeme?_registers (hc : s.cursor.Within source) :
    (s.registers source).nextLexeme? =
      some (s.nextLexeme.1, s.nextLexeme.2.registers source) := by
  have hsplit : s.cursor.rest =
      s.cursor.rest.takeWhile isBlank ++ s.cursor.rest.dropWhile isBlank :=
    List.takeWhile_append_dropWhile.symm
  rw [nextLexeme?, advanceWhile_registers hc, read?_registers (hc.pass hsplit)]
  rfl

/-- A scanner does not leave its text by reading a lexeme. -/
theorem within_next (hc : s.cursor.Within source) : s.cursor.next.2.Within source := by
  rcases s.cursor.blank_or_ahead with hgap | ⟨gap, m, hahead⟩
  · rw [Cursor.next_of_isGap hgap]
    exact hc.finish
  · rw [Cursor.next_of_ahead hahead]
    exact hc.behind hahead

theorem within_next? (hc : s.cursor.Within source) : s.next?.2.cursor.Within source := by
  unfold Scanner.next?
  split
  · exact hc
  · exact within_next hc

/-! ## The sequence from registers -/

/-- An element of the sequence is read like the scanner does. -/
theorem nextElement?_registers (hc : s.cursor.Within source) :
    (s.registers source).nextElement? = some (s.next?.1, s.next?.2.registers source) := by
  have hfinished : (s.registers source).finished = s.finished := rfl
  rw [nextElement?, Scanner.next?, hfinished]
  split
  · rfl
  · rw [nextLexeme?_registers hc]
    rfl

/-- A later element of the sequence is found like the scanner does. -/
theorem nth?_registers (n : Nat) (hc : s.cursor.Within source) :
    (s.registers source).nth? n = some ((s.nth n).1, (s.nth n).2.registers source) := by
  induction n generalizing s with
  | zero => exact nextElement?_registers hc
  | succ n ih =>
    have hwithin := within_next? hc
    rw [nth?, nextElement?_registers hc, Option.bind_some, Scanner.nth]
    cases hnext : s.next? with
    | mk element s' =>
      rw [hnext] at hwithin
      cases element with
      | none => rfl
      | some l => exact ih hwithin

/-- Several elements of the sequence are read like the scanner does. -/
theorem take?_registers (n : Nat) (hc : s.cursor.Within source) :
    (s.registers source).take? n = some ((s.take n).1, (s.take n).2.registers source) := by
  induction n generalizing s with
  | zero => rfl
  | succ n ih =>
    have hwithin := within_next? hc
    rw [take?, nextElement?_registers hc, Option.bind_some, Scanner.take]
    cases hnext : s.next? with
    | mk element s' =>
      rw [hnext] at hwithin
      cases element with
      | none => rfl
      | some l =>
        dsimp only
        rw [ih hwithin]
        rfl

end Registers

end MonkeyTokens
