import MonkeyTokens.Proofs.Lexicon

/-!
# The longest lexeme

The lexicon determines the munch: the longest lexeme at the front of a text is the
only split of the text into a literal that fits its kind and a rest that does not go
on with it.

Main results:

- Theorem `maximal_munch`: what a munch takes fits its kind, and the next character
  does not extend it.
- Theorem `munch_eq_of_maximal`: no other split of the text has these properties.
- Theorem `prefix_munch_of_extends`: a character that extends a literal is taken with it.
-/

namespace MonkeyTokens

/-! ## Runs of characters -/

/-- A run is taken whole if what comes behind it does not go on with it. -/
theorem takeWhile_append_of_head? {p : Char → Bool} {run rest : List Char}
    (hrun : ∀ c ∈ run, p c = true) (hrest : ∀ c ∈ rest.head?, p c = false) :
    (run ++ rest).takeWhile p = run := by
  rw [List.takeWhile_append_of_pos hrun]
  cases rest with
  | nil => simp
  | cons c rest => simp [hrest c rfl]

/-- A run is dropped whole if what comes behind it does not go on with it. -/
theorem dropWhile_append_of_head? {p : Char → Bool} {run rest : List Char}
    (hrun : ∀ c ∈ run, p c = true) (hrest : ∀ c ∈ rest.head?, p c = false) :
    (run ++ rest).dropWhile p = rest := by
  rw [List.dropWhile_append_of_pos hrun]
  cases rest with
  | nil => simp
  | cons c rest => simp [hrest c rfl]

/-- What is left behind a run does not go on with it. -/
theorem eq_false_of_mem_head?_dropWhile {p : Char → Bool} {text : List Char} {c : Char}
    (hc : c ∈ (text.dropWhile p).head?) : p c = false := by
  have hhead := List.head?_dropWhile_not p text
  rw [Option.mem_def.mp hc] at hhead
  simpa using hhead

/-- A run is made of the characters that were asked for. -/
theorem eq_true_of_mem_takeWhile {p : Char → Bool} {text : List Char} {c : Char}
    (hc : c ∈ text.takeWhile p) : p c = true :=
  List.all_eq_true.mp List.all_takeWhile c hc

/-- A run goes on with a character that was asked for. -/
theorem append_singleton_prefix_takeWhile {p : Char → Bool} {run : List Char} {c : Char}
    (hrun : ∀ x ∈ run, p x = true) (hc : p c = true) (rest : List Char) :
    run ++ [c] <+: (run ++ c :: rest).takeWhile p := by
  rw [List.takeWhile_append_of_pos hrun, List.takeWhile_cons, if_pos hc,
    List.prefix_append_right_inj]
  exact List.cons_prefix_cons.mpr ⟨rfl, List.nil_prefix⟩

/-! ## Munches by class -/

theorem munch_of_isLetter {first : Char} (h : isLetter first = true) (after : List Char) :
    munch first after =
      ⟨.ofWord (String.ofList (first :: after.takeWhile isLetter)),
        first :: after.takeWhile isLetter, after.dropWhile isLetter⟩ := by
  have hword : isWordChar = isLetter := funext isWordChar_eq
  simp only [munch, hword, h, if_true]

theorem munch_of_isDigit {first : Char} (h : first.isDigit = true) (after : List Char) :
    munch first after =
      ⟨.int, first :: after.takeWhile Char.isDigit, after.dropWhile Char.isDigit⟩ := by
  have hdigit : isDigitChar = Char.isDigit := funext isDigitChar_eq
  have hword : isWordChar first = false := by
    rw [isWordChar, CharClass.of_eq_digit_iff.mpr h]
    rfl
  simp only [munch, hword, hdigit, h, if_true, Bool.false_eq_true, if_false]

theorem munch_of_ofChar? {first : Char} {s : Symbol} (h : Symbol.ofChar? first = some s)
    (after : List Char) : munch first after = munchSymbol s first after := by
  have hclass : CharClass.of first = .symbol := by
    rw [CharClass.of_eq_symbol_iff, h]
    rfl
  have hword : isWordChar first = false := by
    rw [isWordChar, hclass]
    rfl
  have hdigit : isDigitChar first = false := by
    rw [isDigitChar, hclass]
    rfl
  simp only [munch, hword, hdigit, h, Bool.false_eq_true, if_false]

theorem munch_of_isStray {first : Char} (h : IsStray first) (after : List Char) :
    munch first after = ⟨.illegal, [first], after⟩ := by
  have hclass := CharClass.of_eq_foreign_iff.mpr h
  rcases isForeign_iff.mp (beq_iff_eq.mpr hclass) with ⟨-, hword, hdigit, hsymbol⟩
  simp only [munch, hword, hdigit, hsymbol, Bool.false_eq_true, if_false]

/-- A symbol takes the equals sign that follows if it can be joined with it. -/
theorem munchSymbol_of_joined? {s t : Symbol} (h : s.joined? = some t) (first : Char)
    (after : List Char) :
    munchSymbol s first ('=' :: after) = ⟨.symbol t, [first, '='], after⟩ := by
  simp only [munchSymbol, h]

/-- A symbol that the next character does not extend stands alone. -/
theorem munchSymbol_of_not_extends {s : Symbol} {after : List Char}
    (h : ∀ c ∈ after.head?, ¬ (Kind.symbol s).Extends c) (first : Char) :
    munchSymbol s first after = ⟨.symbol s, [first], after⟩ := by
  unfold munchSymbol
  split
  · split
    · rename_i t hjoined
      refine (h '=' rfl (Kind.extends_symbol_iff.mpr ⟨?_, rfl⟩)).elim
      rw [hjoined]
      rfl
    · rfl
  · rfl

/-- A symbol that came from joining two is not joined again. -/
theorem joined?_eq_none_of_joined? {s t : Symbol} (h : s.joined? = some t) :
    t.joined? = none := by
  cases s <;> cases h <;> rfl

/-- Every symbol is spelled by its one character, or by a character and an equals sign. -/
theorem symbol_cases (s : Symbol) :
    (∃ c, s.text.toList = [c] ∧ Symbol.ofChar? c = some s) ∨
      ∃ c t, s.text.toList = [c, '='] ∧ Symbol.ofChar? c = some t ∧ t.joined? = some s := by
  cases s with
  | equal => exact Or.inr ⟨'=', .assign, rfl, rfl, rfl⟩
  | notEqual => exact Or.inr ⟨'!', .bang, rfl, rfl, rfl⟩
  | _ => exact Or.inl ⟨_, rfl, rfl⟩

/-! ## The munch as the longest lexeme -/

/-- What a munch takes, and why it stops there: its literal fits its kind, and the
next character does not extend it. -/
def Munch.Maximal (m : Munch) : Prop :=
  m.kind.Fits m.text ∧ ∀ c ∈ m.rest.head?, ¬ m.kind.Extends c

theorem maximal_munchSymbol {s : Symbol} {first : Char} (h : Symbol.ofChar? first = some s)
    (after : List Char) : (munchSymbol s first after).Maximal := by
  have hfirst := Symbol.toList_text_of_ofChar? h
  by_cases hext : ∃ c ∈ after.head?, (Kind.symbol s).Extends c
  · rcases hext with ⟨c, hc, hext⟩
    rcases Kind.extends_symbol_iff.mp hext with ⟨hsome, rfl⟩
    rcases Option.isSome_iff_exists.mp hsome with ⟨t, hjoined⟩
    rcases List.head?_eq_some_iff.mp (Option.mem_def.mp hc) with ⟨rest, rfl⟩
    rw [munchSymbol_of_joined? hjoined]
    constructor
    · have htext := Symbol.toList_text_of_joined? hjoined
      rw [hfirst] at htext
      exact htext.symm
    · intro c hc hext
      have hsome := (Kind.extends_symbol_iff.mp hext).1
      rw [joined?_eq_none_of_joined? hjoined] at hsome
      cases hsome
  · have hstop : ∀ c ∈ after.head?, ¬ (Kind.symbol s).Extends c := by
      intro c hc hc'
      exact hext ⟨c, hc, hc'⟩
    rw [munchSymbol_of_not_extends hstop]
    exact ⟨hfirst.symm, hstop⟩

/-- A munch from a character that is no blank is maximal. -/
theorem maximal_munch {first : Char} (hfirst : first ∉ blankChars) (after : List Char) :
    (munch first after).Maximal := by
  cases hclass : CharClass.of first with
  | blank => exact absurd (CharClass.of_eq_blank_iff.mp hclass) hfirst
  | word =>
    have hletter := CharClass.of_eq_word_iff.mp hclass
    rw [munch_of_isLetter hletter]
    have hword := Kind.isWord_ofWord (String.ofList (first :: after.takeWhile isLetter))
    constructor
    · refine (Kind.fits_iff_of_isWord hword).mpr ⟨List.cons_ne_nil _ _, ?_, rfl⟩
      intro c hc
      rcases List.mem_cons.mp hc with rfl | hc
      · exact hletter
      · exact eq_true_of_mem_takeWhile hc
    · intro c hc
      rw [Kind.extends_iff_of_isWord hword, eq_false_of_mem_head?_dropWhile hc]
      exact Bool.false_ne_true
  | digit =>
    have hdigit := CharClass.of_eq_digit_iff.mp hclass
    rw [munch_of_isDigit hdigit]
    constructor
    · refine ⟨List.cons_ne_nil _ _, ?_⟩
      intro c hc
      rcases List.mem_cons.mp hc with rfl | hc
      · exact hdigit
      · exact eq_true_of_mem_takeWhile hc
    · intro c hc hext
      have hstop := eq_false_of_mem_head?_dropWhile hc
      rw [show c.isDigit = true from hext] at hstop
      cases hstop
  | symbol =>
    rcases Option.isSome_iff_exists.mp (CharClass.of_eq_symbol_iff.mp hclass) with ⟨s, hs⟩
    rw [munch_of_ofChar? hs]
    exact maximal_munchSymbol hs after
  | foreign =>
    have hstray := CharClass.of_eq_foreign_iff.mp hclass
    rw [munch_of_isStray hstray]
    exact ⟨⟨first, rfl, hstray⟩, fun c _ => id⟩

/-- A fitting literal that what follows does not extend is what a munch takes. -/
theorem munch_eq_of_maximal {first : Char} {after : List Char} {m : Munch}
    (hsplit : m.text ++ m.rest = first :: after) (hmax : m.Maximal) :
    munch first after = m := by
  rcases m with ⟨kind, text, rest⟩
  rcases hmax with ⟨hfits, hstop⟩
  simp only at hsplit hfits hstop
  obtain ⟨tail, rfl⟩ : ∃ tail, text = first :: tail := by
    cases text with
    | nil => exact absurd rfl hfits.ne_nil
    | cons c tail => exact ⟨tail, by rw [(List.cons.inj hsplit).1]⟩
  have heq : tail ++ rest = after := (List.cons.inj hsplit).2
  subst heq
  by_cases hword : kind.isWord = true
  · rcases (Kind.fits_iff_of_isWord hword).mp hfits with ⟨-, hletters, hkind⟩
    have hrun : ∀ c ∈ tail, isLetter c = true := by
      intro c hc
      exact hletters c (List.mem_cons_of_mem _ hc)
    have hrest : ∀ c ∈ rest.head?, isLetter c = false := by
      intro c hc
      have hnot := hstop c hc
      rw [Kind.extends_iff_of_isWord hword] at hnot
      exact Bool.eq_false_iff.mpr hnot
    rw [munch_of_isLetter (hletters first List.mem_cons_self),
      takeWhile_append_of_head? hrun hrest, dropWhile_append_of_head? hrun hrest, hkind]
  · cases kind with
    | eof => exact hfits.elim
    | ident | keyword k => exact absurd rfl hword
    | illegal =>
      rcases hfits with ⟨c, htext, hstray⟩
      rcases List.cons.inj htext with ⟨rfl, rfl⟩
      exact munch_of_isStray hstray rest
    | int =>
      have hrun : ∀ c ∈ tail, c.isDigit = true := by
        intro c hc
        exact hfits.2 c (List.mem_cons_of_mem _ hc)
      have hrest : ∀ c ∈ rest.head?, c.isDigit = false := by
        intro c hc
        exact Bool.eq_false_iff.mpr (hstop c hc)
      rw [munch_of_isDigit (hfits.2 first List.mem_cons_self),
        takeWhile_append_of_head? hrun hrest, dropWhile_append_of_head? hrun hrest]
    | symbol s =>
      have htext : first :: tail = s.text.toList := hfits
      rcases symbol_cases s with ⟨c, hspell, hc⟩ | ⟨c, t, hspell, hc, hjoined⟩
      · rw [hspell] at htext
        rcases List.cons.inj htext with ⟨rfl, rfl⟩
        rw [munch_of_ofChar? hc]
        exact munchSymbol_of_not_extends hstop first
      · rw [hspell] at htext
        rcases List.cons.inj htext with ⟨rfl, rfl⟩
        rw [munch_of_ofChar? hc]
        exact munchSymbol_of_joined? hjoined first rest

/-- A munch takes all of a fitting literal and the character that extends it. -/
theorem prefix_munch_of_extends {k : Kind} {first c : Char} {tail : List Char}
    (hfits : k.Fits (first :: tail)) (hext : k.Extends c) (rest : List Char) :
    first :: (tail ++ [c]) <+: (munch first (tail ++ c :: rest)).text := by
  rcases Kind.extends_iff.mp hext with ⟨hword, hletter⟩ | ⟨rfl, hdigit⟩ | ⟨hkind, rfl⟩
  · rcases (Kind.fits_iff_of_isWord hword).mp hfits with ⟨-, hletters, -⟩
    rcases List.forall_mem_cons.mp hletters with ⟨hfirst, htail⟩
    rw [munch_of_isLetter hfirst]
    exact List.cons_prefix_cons.mpr ⟨rfl, append_singleton_prefix_takeWhile htail hletter rest⟩
  · rcases List.forall_mem_cons.mp hfits.2 with ⟨hfirst, htail⟩
    rw [munch_of_isDigit hfirst]
    exact List.cons_prefix_cons.mpr ⟨rfl, append_singleton_prefix_takeWhile htail hdigit rest⟩
  · rcases hkind with rfl | rfl
    · cases hfits
      exact List.prefix_rfl
    · cases hfits
      exact List.prefix_rfl

end MonkeyTokens
