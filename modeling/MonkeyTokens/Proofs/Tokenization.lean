import MonkeyTokens.Proofs.Reading
import MonkeyTokens.Proofs.Within
import MonkeyTokens.Scanner

/-!
# The tokenization of a text

What the lexemes of a text are, without saying how they are found.  Each stands where
its span says, fits its kind and is not extended by the character behind it; what the
lexemes leave out is blank; the last one, and no other, is the end of the text.

Main results:

- Theorem `isTokenization_cons_iff`: a tokenization is a lexeme behind blanks and a
  tokenization of what comes behind the lexeme.
- Theorem `Cursor.Within.isTokenization_iff`: from every cursor within a text the
  lexemes are the only tokenization of what is left.
- Theorem `eq_drain_iff_isTokenization`: the lexemes that a new scanner yields are the
  only tokenization of its text.
-/

namespace MonkeyTokens

/-! ## The specification -/

/-- The stretches that lexemes leave out: from `start` to the first lexeme, and from
each lexeme to the next. -/
def gaps (start : Nat) (lexemes : List Lexeme) : List (Nat × Nat) :=
  (start :: lexemes.map (·.span.stop)).zip (lexemes.map (·.span.start))

/-- A text holds only blanks from one offset up to another. -/
def BlankBetween (source : String) (start stop : Nat) : Prop :=
  ∃ text, Utf8.slice? source start stop = some text ∧ IsGap text.toList

/-- A lexeme stands in a text where its span says, and is as long as it can be. -/
structure Placed (source : String) (l : Lexeme) : Prop where
  literal_ne : l.token.literal ≠ ""
  literal_eq : Utf8.slice? source l.span.start l.span.stop = some l.token.literal
  fits : l.token.kind.Fits l.token.literal.toList
  not_extends : ∀ c, Utf8.charAt? source l.span.stop = some c → ¬ l.token.kind.Extends c

/-- Lexemes make up a text from the byte `start` on. -/
structure IsTokenization (source : String) (start : Nat) (lexemes : List Lexeme) : Prop where
  last : ∃ l, lexemes.getLast? = some l ∧ l.token = .endOfText ∧
    l.span.start = Utf8.width source.toList ∧ l.span.stop = Utf8.width source.toList
  only_last : ∀ l ∈ lexemes.dropLast, l.isEof = false
  placed : ∀ l ∈ lexemes.dropLast, Placed source l
  ordered : lexemes.Pairwise fun l m => l.span.stop ≤ m.span.start
  blank : ∀ gap ∈ gaps start lexemes, BlankBetween source gap.1 gap.2
  line : ∀ l ∈ lexemes, Utf8.lineAt? source l.span.start = some l.span.line

variable {source : String} {start : Nat} {l : Lexeme} {lexemes later : List Lexeme}

/-! ## Taking a tokenization apart -/

/-- A slice does not end before it begins. -/
theorem le_of_slice? {stop : Nat} {text : String}
    (h : Utf8.slice? source start stop = some text) : start ≤ stop := by
  rcases Utf8.slice?_eq_some_iff.mp h with ⟨-, -, -, -, hstop⟩
  omega

@[simp]
theorem gaps_cons (start : Nat) (l : Lexeme) (later : List Lexeme) :
    gaps start (l :: later) = (start, l.span.start) :: gaps l.span.stop later :=
  rfl

/-- A placed lexeme is not the end of the text. -/
theorem Placed.isEof_eq (h : Placed source l) : l.isEof = false := by
  simpa [Lexeme.isEof, Token.isEof] using h.fits.ne_eof

/-- No lexeme of a tokenization begins before the tokenization does. -/
theorem IsTokenization.start_le (h : IsTokenization source start lexemes) :
    ∀ m ∈ lexemes, start ≤ m.span.start := by
  cases lexemes with
  | nil => simp
  | cons l later =>
    rcases h.blank _ (by rw [gaps_cons]; exact List.mem_cons_self) with ⟨text, hgap, -⟩
    have hstart := le_of_slice? hgap
    intro m hm
    rcases List.mem_cons.mp hm with rfl | hm
    · exact hstart
    · have hplaced : Placed source l := by
        apply h.placed
        rw [List.dropLast_cons_of_ne_nil (List.ne_nil_of_mem hm)]
        exact List.mem_cons_self
      have hl := le_of_slice? hplaced.literal_eq
      have hlm := (List.pairwise_cons.mp h.ordered).1 m hm
      simp only at hstart
      omega

/-- A tokenization is a lexeme behind blanks and a tokenization of what comes behind
the lexeme. -/
theorem isTokenization_cons_iff (hlater : later ≠ []) :
    IsTokenization source start (l :: later) ↔
      BlankBetween source start l.span.start ∧ Placed source l ∧
        Utf8.lineAt? source l.span.start = some l.span.line ∧
        IsTokenization source l.span.stop later := by
  have hdrop : (l :: later).dropLast = l :: later.dropLast :=
    List.dropLast_cons_of_ne_nil hlater
  have hlast : (l :: later).getLast? = later.getLast? :=
    List.getLast?_cons_of_ne_nil hlater
  constructor
  · intro h
    rcases h with ⟨last, only_last, placed, ordered, blank, line⟩
    rw [hlast] at last
    rw [hdrop] at only_last placed
    rw [gaps_cons] at blank
    refine ⟨blank _ List.mem_cons_self, placed l List.mem_cons_self,
      line l List.mem_cons_self, last, ?_, ?_, ?_, ?_, ?_⟩
    · exact fun m hm => only_last m (List.mem_cons_of_mem _ hm)
    · exact fun m hm => placed m (List.mem_cons_of_mem _ hm)
    · exact (List.pairwise_cons.mp ordered).2
    · exact fun gap hgap => blank gap (List.mem_cons_of_mem _ hgap)
    · exact fun m hm => line m (List.mem_cons_of_mem _ hm)
  · intro h
    rcases h with ⟨hblank, hplaced, hline, h⟩
    refine ⟨hlast ▸ h.last, ?_, ?_, ?_, ?_, ?_⟩
    · rw [hdrop]
      exact List.forall_mem_cons.mpr ⟨hplaced.isEof_eq, h.only_last⟩
    · rw [hdrop]
      exact List.forall_mem_cons.mpr ⟨hplaced, h.placed⟩
    · exact List.pairwise_cons.mpr ⟨h.start_le, h.ordered⟩
    · rw [gaps_cons]
      exact List.forall_mem_cons.mpr ⟨hblank, h.blank⟩
    · exact List.forall_mem_cons.mpr ⟨hline, h.line⟩

/-- A single lexeme is a tokenization if it is the end and only blanks come before it. -/
theorem isTokenization_singleton_iff :
    IsTokenization source start [l] ↔
      BlankBetween source start l.span.start ∧ l.token = .endOfText ∧
        l.span.start = Utf8.width source.toList ∧ l.span.stop = Utf8.width source.toList ∧
        Utf8.lineAt? source l.span.start = some l.span.line := by
  constructor
  · intro h
    rcases h with ⟨⟨m, hm, htoken, hstart, hstop⟩, -, -, -, blank, line⟩
    have heq : l = m := Option.some.inj hm
    subst heq
    exact ⟨blank _ List.mem_cons_self, htoken, hstart, hstop, line l List.mem_cons_self⟩
  · intro h
    rcases h with ⟨hblank, htoken, hstart, hstop, hline⟩
    refine ⟨⟨l, rfl, htoken, hstart, hstop⟩, by simp, by simp, by simp, ?_, ?_⟩
    · rw [gaps_cons]
      exact List.forall_mem_cons.mpr ⟨hblank, by simp [gaps]⟩
    · exact List.forall_mem_cons.mpr ⟨hline, by simp⟩

/-! ## What a cursor sees of a tokenization -/

namespace Cursor

variable {c : Cursor} {stop : Nat}

/-- Blanks stand behind a cursor up to an offset if what is left begins with them. -/
theorem Within.blankBetween_iff (hc : c.Within source) :
    BlankBetween source c.offset stop ↔
      ∃ gap rest, c.rest = gap ++ rest ∧ IsGap gap ∧ stop = c.offset + Utf8.width gap := by
  constructor
  · intro h
    rcases h with ⟨text, hslice, hgap⟩
    rcases hc.slice?_offset.mp hslice with ⟨rest, hrest, hstop⟩
    exact ⟨text.toList, rest, hrest, hgap, hstop.symm⟩
  · intro h
    rcases h with ⟨gap, rest, hrest, hgap, rfl⟩
    refine ⟨String.ofList gap, hc.slice?_offset.mpr ⟨rest, ?_, ?_⟩, ?_⟩
    · rwa [String.toList_ofList]
    · rw [String.toList_ofList]
    · rwa [String.toList_ofList]

/-- A lexeme is placed at a cursor if what is left splits into its literal, which is
maximal, and a rest. -/
theorem Within.placed_iff (hc : c.Within source) (hstart : l.span.start = c.offset) :
    Placed source l ↔
      ∃ m : Munch, c.rest = m.text ++ m.rest ∧ m.Maximal ∧
        l.token = ⟨m.kind, String.ofList m.text⟩ ∧
        l.span.stop = c.offset + Utf8.width m.text := by
  constructor
  · intro h
    rcases h with ⟨-, hliteral, hfits, hstop⟩
    rw [hstart] at hliteral
    rcases hc.slice?_offset.mp hliteral with ⟨rest, hrest, hwidth⟩
    refine ⟨⟨l.token.kind, l.token.literal.toList, rest⟩, hrest, ⟨hfits, ?_⟩, ?_, hwidth.symm⟩
    · intro x hx
      apply hstop
      rw [← hwidth, ← pass_offset c l.token.literal.toList rest, (hc.pass hrest).charAt?_offset]
      exact hx
    · rw [String.ofList_toList]
  · intro h
    rcases h with ⟨m, hrest, ⟨hfits, hstop⟩, htoken, hwidth⟩
    have hliteral : l.token.literal.toList = m.text := by
      rw [htoken, String.toList_ofList]
    refine ⟨?_, ?_, ?_, ?_⟩
    · rw [ne_eq, ← String.toList_inj, hliteral]
      exact hfits.ne_nil
    · rw [hstart, hc.slice?_offset, hliteral]
      exact ⟨m.rest, hrest, hwidth.symm⟩
    · rw [hliteral, htoken]
      exact hfits
    · intro x hx
      rw [hwidth, ← pass_offset c m.text m.rest, (hc.pass hrest).charAt?_offset] at hx
      rw [htoken]
      exact hstop x hx

/-- The cursor at the end of a text has the offset of its length. -/
theorem Within.offset_finish (hc : c.Within source) :
    c.finish.offset = Utf8.width source.toList :=
  hc.offset_add_width

/-- The end of a text lies within it. -/
theorem Within.finish (hc : c.Within source) : c.finish.Within source :=
  hc.pass (List.append_nil c.rest).symm

/-- Behind a lexeme a cursor is still within its text. -/
theorem Within.behind {gap : List Char} {m : Munch} (hc : c.Within source)
    (h : c.Ahead gap m) : (c.behind gap m).Within source := by
  apply hc.pass
  rw [h.rest_eq, List.append_assoc]

/-- The span of a lexeme ends where the cursor behind it stands. -/
theorem stop_lexemeAfter (c : Cursor) (gap : List Char) (m : Munch) :
    (c.lexemeAfter gap m).span.stop = (c.behind gap m).offset := by
  simp [lexemeAfter, behind, Nat.add_assoc]

end Cursor

/-! ## Lexemes and tokenizations -/

variable {c : Cursor}

/-- A reading from a cursor within a text is a tokenization of what is left. -/
theorem Reading.isTokenization (h : Reading c lexemes) (hc : c.Within source) :
    IsTokenization source c.offset lexemes := by
  induction h with
  | @done c hgap =>
    have hblank : BlankBetween source c.offset c.finish.offset :=
      hc.blankBetween_iff.mpr ⟨c.rest, [], (List.append_nil _).symm, hgap, rfl⟩
    exact isTokenization_singleton_iff.mpr
      ⟨hblank, rfl, hc.offset_finish, hc.offset_finish, hc.finish.lineAt?_offset⟩
  | @more c gap m later hahead hlater ih =>
    have hfront : (c.pass gap (m.text ++ m.rest)).Within source := hc.pass hahead.rest_eq
    have hblank : BlankBetween source c.offset (c.lexemeAfter gap m).span.start :=
      hc.blankBetween_iff.mpr ⟨gap, _, hahead.rest_eq, hahead.isGap, rfl⟩
    have hplaced : Placed source (c.lexemeAfter gap m) :=
      (hfront.placed_iff rfl).mpr ⟨m, rfl, hahead.maximal, rfl, rfl⟩
    have hbehind := ih (hc.behind hahead)
    rw [← Cursor.stop_lexemeAfter] at hbehind
    exact (isTokenization_cons_iff hlater.ne_nil).mpr
      ⟨hblank, hplaced, hfront.lineAt?_offset, hbehind⟩

/-- A single lexeme that makes up what is left behind a cursor is the end. -/
theorem Cursor.Within.reading_singleton (hc : c.Within source)
    (h : IsTokenization source c.offset [l]) : Reading c [l] := by
  rcases isTokenization_singleton_iff.mp h with ⟨hblank, htoken, hstart, hstop, hline⟩
  rcases hc.blankBetween_iff.mp hblank with ⟨gap, rest, hrest, hgap, hwidth⟩
  -- The blanks reach up to the end of the text, so nothing is left behind them.
  have hnil : rest = [] := by
    have htotal := hc.offset_add_width
    rw [hrest, Utf8.width_append] at htotal
    rw [← Utf8.width_eq_zero_iff]
    omega
  rw [hnil, List.append_nil] at hrest
  have hl : l = c.finish.endLexeme := by
    rcases l with ⟨token, start, stop, line⟩
    simp only at htoken hstart hstop hline
    rw [hstart, ← hc.offset_finish, hc.finish.lineAt?_offset] at hline
    rw [htoken, hstart, hstop, ← hc.offset_finish, ← Option.some.inj hline]
    rfl
  rw [hl]
  exact Reading.done (hrest ▸ hgap)

/-- A tokenization of what is left behind a cursor is a reading from it. -/
theorem Cursor.Within.reading (hc : c.Within source)
    (h : IsTokenization source c.offset lexemes) : Reading c lexemes := by
  induction lexemes generalizing c with
  | nil =>
    rcases h.last with ⟨l, hl, -⟩
    cases hl
  | cons l later ih =>
    by_cases hlater : later = []
    · subst hlater
      exact hc.reading_singleton h
    · rcases (isTokenization_cons_iff hlater).mp h with ⟨hblank, hplaced, hline, hrec⟩
      rcases hc.blankBetween_iff.mp hblank with ⟨gap, ahead, hrest, hgap, hstart⟩
      have hfront : (c.pass gap ahead).Within source := hc.pass hrest
      rcases (hfront.placed_iff hstart).mp hplaced with ⟨m, hm, hmax, htoken, hstop⟩
      have hahead : c.Ahead gap m := ⟨by rw [hrest, ← hm]; rfl, hgap, hmax⟩
      have hl : l = c.lexemeAfter gap m := by
        rcases l with ⟨token, start, stop, line⟩
        simp only at hstart htoken hstop hline
        rw [hstart, ← pass_offset c gap ahead, hfront.lineAt?_offset] at hline
        rw [htoken, hstart, hstop, ← Option.some.inj hline]
        rfl
      subst hl
      rw [stop_lexemeAfter] at hrec
      exact Reading.more hahead (ih (hc.behind hahead) hrec)

/-- From every cursor within a text, the lexemes are the only tokenization of what is
left. -/
theorem Cursor.Within.isTokenization_iff (hc : c.Within source) :
    IsTokenization source c.offset lexemes ↔ lexemes = c.lexemes := by
  rw [← reading_iff]
  exact ⟨hc.reading, fun h => h.isTokenization hc⟩

/-- The lexemes of a text are a tokenization of it. -/
theorem isTokenization_lexemes (source : String) :
    IsTokenization source 0 (MonkeyTokens.lexemes source) :=
  (Cursor.within_atStart source).isTokenization_iff.mpr rfl

/-- Every lexeme of a text but the end is placed in it. -/
theorem placed_of_mem_lexemes (hl : l ∈ MonkeyTokens.lexemes source)
    (hmore : l.isEof = false) : Placed source l := by
  apply (isTokenization_lexemes source).placed
  have hread : Reading (.atStart source) (MonkeyTokens.lexemes source) := reading_lexemes _
  rw [hread.dropLast_eq_filter, List.mem_filter]
  exact ⟨hl, by rw [hmore]; rfl⟩

/-- The lexemes that a new scanner yields are the only tokenization of its text. -/
theorem eq_drain_iff_isTokenization (source : String) (lexemes : List Lexeme) :
    lexemes = (Scanner.ofSource source).drain ↔ IsTokenization source 0 lexemes := by
  rw [Scanner.drain_ofSource, MonkeyTokens.lexemes]
  exact (Cursor.within_atStart source).isTokenization_iff.symm

end MonkeyTokens
