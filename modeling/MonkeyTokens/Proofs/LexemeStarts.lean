import Mathlib.Data.List.Induction
import Mathlib.Data.Nat.Init
import MonkeyTokens.Proofs.Seams

/-!
# Where lexemes begin

Whether a lexeme begins at a character can be seen from the characters right before it, without
scanning what comes before.  A letter or a digit begins one unless another of its class stands
before it.  An equals sign begins one unless the sign before it waits to be joined, and which
signs of a run do that alternates from the first to the last.  Every other character that is
no blank begins a lexeme.

Main results:

- Theorem `exists_start_iff`: a lexeme begins at the seam of two texts that do not glue.
- Theorem `glues_equals_iff`: a text glues with an equals sign if the signs at its end are odd
  in number.
- Theorem `tokenize_equalsRun`: the tokens of a run of equals signs.
- Theorem `lexeme_starts_iff_begins`: where lexemes begin, and what runs of equals signs give.
-/

namespace MonkeyTokens

variable {source a b : String} {l : Lexeme} {i : Nat}

/-! ## Lexemes behind a seam -/

/-- No lexeme begins inside another. -/
theorem start_ne_of_crosses {outer : Lexeme} (houter : outer ∈ lexemes source)
    (hcross : outer.Crosses i) (hl : l ∈ properLexemes source) : l.span.start ≠ i := by
  have hmem : l ∈ lexemes source := (List.mem_filter.mp hl).1
  have hle : l.span.start ≤ l.span.stop := le_of_slice? (placed_of_mem_properLexemes hl).literal_eq
  have hordered := (isTokenization_lexemes source).ordered
  rcases List.append_of_mem houter with ⟨before, later, hsplit⟩
  rw [hsplit] at hmem hordered
  rcases List.pairwise_append.mp hordered with ⟨-, hbehind, hbefore⟩
  rintro rfl
  rcases List.mem_append.mp hmem with hfirst | hrest
  · have hstop := hbefore l hfirst outer List.mem_cons_self
    have hstart := hcross.1
    omega
  · rcases List.mem_cons.mp hrest with rfl | hlater
    · exact Nat.lt_irrefl _ hcross.1
    · have hstop := (List.pairwise_cons.mp hbehind).1 l hlater
      have hstart := hcross.2
      omega

/-- A proper lexeme begins with a character that is no blank. -/
theorem head?_not_blank_of_start (hl : l ∈ properLexemes (a ++ b))
    (hstart : l.span.start = Utf8.width a.toList) :
    ∃ c ∈ b.toList.head?, c ∉ blankChars := by
  have hplaced := placed_of_mem_properLexemes hl
  rcases Utf8.slice?_eq_some_iff.mp hplaced.literal_eq with
    ⟨before, after, hsource, hwidth, -⟩
  rw [String.toList_append, List.append_assoc] at hsource
  have hb := (Utf8.append_inj_of_width_eq hsource (hstart.symm.trans hwidth.symm)).2
  rcases List.exists_cons_of_ne_nil hplaced.fits.ne_nil with ⟨first, tail, hliteral⟩
  refine ⟨first, ?_, hplaced.fits.not_mem_blankChars ?_⟩
  · rw [hb, hliteral]
    rfl
  · rw [hliteral]
    exact List.mem_cons_self

/-- A text that does not begin with a blank begins with a lexeme. -/
theorem exists_start_zero {c : Char} (hc : c ∈ b.toList.head?) (hblank : c ∉ blankChars) :
    ∃ l ∈ properLexemes b, l.span.start = 0 := by
  rcases (Cursor.atStart b).blank_or_ahead with hgap | ⟨gap, m, hahead⟩
  · exact absurd (hgap c (List.mem_of_mem_head? hc)) hblank
  · have hnil : gap = [] := by
      cases gap with
      | nil => rfl
      | cons x gap =>
        have hrest : b.toList = x :: gap ++ (m.text ++ m.rest) := hahead.rest_eq
        rw [hrest] at hc
        cases hc
        exact absurd (hahead.isGap _ List.mem_cons_self) hblank
    refine ⟨(Cursor.atStart b).lexemeAfter gap m, ?_, ?_⟩
    · rw [properLexemes, List.mem_filter, lexemes, Cursor.lexemes_of_ahead hahead,
        Cursor.isEof_lexemeAfter hahead.maximal]
      exact ⟨List.mem_cons_self, rfl⟩
    · rw [hnil]
      rfl

/-- A lexeme begins where a second text is put behind a first exactly if the second does not
begin with a blank and the two do not glue. -/
theorem exists_start_iff :
    (∃ l ∈ properLexemes (a ++ b), l.span.start = Utf8.width a.toList) ↔
      (∃ c ∈ b.toList.head?, c ∉ blankChars) ∧ ¬ Glues a b := by
  constructor
  · intro h
    rcases h with ⟨l, hl, hstart⟩
    refine ⟨head?_not_blank_of_start hl hstart, ?_⟩
    intro hglue
    rcases exists_crosses_of_glues hglue with ⟨outer, houter, hcross⟩
    exact start_ne_of_crosses houter hcross hl hstart
  · intro h
    rcases h with ⟨⟨c, hc, hblank⟩, hglue⟩
    rcases exists_start_zero hc hblank with ⟨l, hl, hstart⟩
    refine ⟨l.shift (Utf8.width a.toList) (a.toList.count '\n'), ?_, ?_⟩
    · rw [properLexemes_append hglue]
      exact List.mem_append_right _ (List.mem_map_of_mem hl)
    · rw [Lexeme.shift, hstart, Nat.zero_add]

/-! ## Signs that wait to be joined -/

/-- The number of equals signs at the end of a text, and one more if an exclamation mark stands
right before them. -/
def signsAtEnd (text : List Char) : Nat :=
  (text.reverse.takeWhile (· == '=')).length +
    if (text.reverse.dropWhile (· == '=')).head? = some '!' then 1 else 0

theorem signsAtEnd_append_equals (text : List Char) :
    signsAtEnd (text ++ ['=']) = signsAtEnd text + 1 := by
  simp [signsAtEnd, Nat.add_right_comm]

theorem signsAtEnd_append_of_ne {c : Char} (hc : c ≠ '=') (text : List Char) :
    signsAtEnd (text ++ [c]) = if c = '!' then 1 else 0 := by
  simp [signsAtEnd, hc]

/-- The spelling of a symbol is scanned as that symbol. -/
theorem properLexemes_text (s : Symbol) :
    properLexemes s.text =
      [⟨⟨.symbol s, s.text⟩, ⟨0, Utf8.width s.text.toList, 1⟩⟩] := by
  have hahead : (Cursor.atStart s.text).Ahead [] ⟨.symbol s, s.text.toList, []⟩ :=
    ⟨(List.append_nil _).symm, isGap_nil, rfl, by simp⟩
  have hlexeme : (Cursor.atStart s.text).lexemeAfter [] ⟨.symbol s, s.text.toList, []⟩ =
      ⟨⟨.symbol s, s.text⟩, ⟨0, Utf8.width s.text.toList, 1⟩⟩ := by
    simp [Cursor.lexemeAfter, Cursor.atStart]
  rw [properLexemes_eq_dropLast, lexemes, Cursor.lexemes_of_ahead hahead,
    Cursor.lexemes_of_isGap isGap_nil, hlexeme]
  rfl

/-- An equals sign glues with nothing but a symbol that it joins. -/
theorem glues_equals_iff_last :
    Glues a "=" ↔
      ∃ l, (lexemes a).dropLast.getLast? = some l ∧
        (l.token.kind = .symbol .assign ∨ l.token.kind = .symbol .bang) ∧
        l.span.stop = Utf8.width a.toList := by
  constructor
  · intro h
    rcases h with ⟨x, y, -, hy, hxy⟩ | ⟨-, hlast⟩
    · cases hy
      rcases hxy with ⟨-, hletter⟩ | ⟨-, hdigit⟩
      · exact absurd hletter (by decide)
      · exact absurd hdigit (by decide)
    · exact hlast
  · intro hlast
    exact Or.inr ⟨rfl, hlast⟩

/-- A symbol that can be joined glues with an equals sign, unless it is joined already. -/
theorem glues_equals_of_text {s : Symbol} (hs : s = .assign ∨ s = .bang)
    (h : ¬ Glues a s.text) : Glues (a ++ s.text) "=" := by
  have hlast : (lexemes (a ++ s.text)).dropLast.getLast? =
      some (Lexeme.shift (Utf8.width a.toList) (a.toList.count '\n')
        ⟨⟨.symbol s, s.text⟩, ⟨0, Utf8.width s.text.toList, 1⟩⟩) := by
    rw [← properLexemes_eq_dropLast, properLexemes_append h, properLexemes_text,
      List.map_singleton, List.getLast?_concat]
  refine glues_equals_iff_last.mpr ⟨_, hlast, ?_, ?_⟩
  · rcases hs with rfl | rfl
    · exact Or.inl rfl
    · exact Or.inr rfl
  · rw [String.toList_append, Utf8.width_append, Nat.add_comm]
    rfl

/-- Only letters, digits and equals signs glue with what comes before them. -/
theorem glues_iff_of_head? {c : Char} (hc : b.toList.head? = some c) :
    Glues a b ↔
      (∃ x ∈ a.toList.getLast?,
        (isLetter x = true ∧ isLetter c = true) ∨ (x.isDigit = true ∧ c.isDigit = true)) ∨
        (c = '=' ∧ Glues a "=") := by
  constructor
  · intro h
    rcases h with ⟨x, y, hx, hy, hxy⟩ | ⟨hy, hlast⟩
    · cases hc.symm.trans hy
      exact Or.inl ⟨x, hx, hxy⟩
    · cases hc.symm.trans hy
      exact Or.inr ⟨rfl, glues_equals_iff_last.mpr hlast⟩
  · intro h
    rcases h with ⟨x, hx, hxy⟩ | ⟨rfl, hequals⟩
    · exact Or.inl ⟨x, c, hx, hc, hxy⟩
    · exact Or.inr ⟨hc, glues_equals_iff_last.mp hequals⟩

/-- A text that glues with an equals sign ends in a lexeme that waits for one. -/
theorem exists_symbol_of_glues_equals (h : Glues source "=") :
    ∃ l ∈ properLexemes source, ∃ before s, (s = Symbol.assign ∨ s = Symbol.bang) ∧
      source.toList = before ++ s.text.toList ∧ l.span.start = Utf8.width before := by
  rcases glues_equals_iff_last.mp h with ⟨l, hl, hkind, hstop⟩
  have hmem : l ∈ properLexemes source := by
    rw [properLexemes_eq_dropLast]
    exact List.mem_of_getLast? hl
  obtain ⟨s, hs, hsymbol⟩ : ∃ s, (s = Symbol.assign ∨ s = Symbol.bang) ∧
      l.token.kind = .symbol s := by
    rcases hkind with hkind | hkind
    · exact ⟨.assign, Or.inl rfl, hkind⟩
    · exact ⟨.bang, Or.inr rfl, hkind⟩
  have hplaced := placed_of_mem_properLexemes hmem
  have hliteral : l.token.literal.toList = s.text.toList := by
    have hfits := hplaced.fits
    rwa [hsymbol] at hfits
  rcases Utf8.slice?_eq_some_iff.mp hplaced.literal_eq with
    ⟨before, after, hsource, hwidth, hend⟩
  have hafter : after = [] := by
    rw [← Utf8.width_eq_zero_iff]
    rw [hsource, Utf8.width_append, Utf8.width_append] at hstop
    omega
  rw [hafter, List.append_nil, hliteral] at hsource
  exact ⟨l, hmem, before, s, hs, hsource, hwidth.symm⟩

/-- Behind an equals sign, the next one is joined exactly if that one was not. -/
theorem glues_append_equals : Glues (a ++ "=") "=" ↔ ¬ Glues a "=" := by
  constructor
  · intro h
    rcases exists_symbol_of_glues_equals h with ⟨l, hl, before, s, hs, hsource, hstart⟩
    rw [String.toList_append] at hsource
    rcases hs with rfl | rfl
    · have hbefore : a.toList = before := List.append_cancel_right hsource
      rw [← hbefore] at hstart
      exact (exists_start_iff.mp ⟨l, hl, hstart⟩).2
    · have hlast : "=".toList = Symbol.bang.text.toList := (List.append_inj' hsource rfl).2
      exact absurd hlast (by decide)
  · exact glues_equals_of_text (Or.inl rfl)

/-- Behind another character, an equals sign is joined exactly if that is an exclamation
mark. -/
theorem glues_append_of_ne {c : Char} (hc : c ≠ '=') (hb : b.toList = [c]) :
    Glues (a ++ b) "=" ↔ c = '!' := by
  constructor
  · intro h
    rcases exists_symbol_of_glues_equals h with ⟨l, -, before, s, hs, hsource, -⟩
    rw [String.toList_append, hb] at hsource
    rcases hs with rfl | rfl
    · exact absurd (List.cons.inj (List.append_inj' hsource rfl).2).1 hc
    · exact (List.cons.inj (List.append_inj' hsource rfl).2).1
  · rintro rfl
    have hbang : b = Symbol.bang.text := String.toList_inj.mp hb
    rw [hbang]
    apply glues_equals_of_text (Or.inr rfl)
    have hmark : isLetter '!' = false ∧ '!'.isDigit = false := by
      decide
    simp [glues_iff_of_head? (show Symbol.bang.text.toList.head? = some '!' from rfl), hmark]

/-- A text glues with an equals sign if the signs at its end are odd in number: they are joined
in pairs from the first on, and the last is left over. -/
theorem glues_equals_iff (before : List Char) :
    Glues (String.ofList before) "=" ↔ signsAtEnd before % 2 = 1 := by
  -- The last character decides, and if it is an equals sign, the text before it does.
  induction before using List.reverseRecOn with
  | nil =>
    apply iff_of_false _ (by decide)
    intro h
    rcases exists_symbol_of_glues_equals h with ⟨l, -, before, s, -, hsource, -⟩
    rw [String.toList_ofList, eq_comm, List.append_eq_nil_iff, String.toList_eq_nil_iff] at hsource
    cases s <;> exact absurd hsource.2 (by decide)
  | append_singleton before c ih =>
    rw [String.ofList_append]
    by_cases hc : c = '='
    · subst hc
      have hequals : String.ofList ['='] = "=" := rfl
      rw [hequals, glues_append_equals, ih, signsAtEnd_append_equals]
      omega
    · rw [glues_append_of_ne hc String.toList_ofList, signsAtEnd_append_of_ne hc]
      split <;> simp_all

/-! ## Beginnings -/

/-- What must hold of a character, and of the text before it, for a lexeme to begin there. -/
structure Begins (before : List Char) (c : Char) : Prop where
  not_blank : c ∉ blankChars
  letter : isLetter c = true → ∀ x ∈ before.getLast?, isLetter x = false
  digit : c.isDigit = true → ∀ x ∈ before.getLast?, x.isDigit = false
  equals : c = '=' → signsAtEnd before % 2 = 0

/-- A character begins a lexeme if it is no blank and nothing before it reaches it. -/
theorem begins_iff {before : List Char} {c : Char} (hc : b.toList.head? = some c) :
    Begins before c ↔ c ∉ blankChars ∧ ¬ Glues (String.ofList before) b := by
  rw [glues_iff_of_head? hc, glues_equals_iff, String.toList_ofList]
  constructor
  · intro h
    refine ⟨h.not_blank, ?_⟩
    rintro (⟨x, hx, ⟨hletter, hc'⟩ | ⟨hdigit, hc'⟩⟩ | ⟨hequals, hodd⟩)
    · rw [h.letter hc' x hx] at hletter
      cases hletter
    · rw [h.digit hc' x hx] at hdigit
      cases hdigit
    · have heven := h.equals hequals
      omega
  · intro h
    rcases h with ⟨hblank, hglue⟩
    refine ⟨hblank, ?_, ?_, ?_⟩
    · intro hc' x hx
      rw [Bool.eq_false_iff]
      intro hletter
      exact hglue (Or.inl ⟨x, hx, Or.inl ⟨hletter, hc'⟩⟩)
    · intro hc' x hx
      rw [Bool.eq_false_iff]
      intro hdigit
      exact hglue (Or.inl ⟨x, hx, Or.inr ⟨hdigit, hc'⟩⟩)
    · intro hequals
      have hodd : ¬ signsAtEnd before % 2 = 1 := fun hodd => hglue (Or.inr ⟨hequals, hodd⟩)
      omega

/-- An equals sign begins a lexeme behind an even number of signs. -/
theorem begins_equals {before : List Char} (heven : signsAtEnd before % 2 = 0) :
    Begins before '=' where
  not_blank := by decide
  letter h := absurd h (by decide)
  digit h := absurd h (by decide)
  equals _ := heven

/-- An exclamation mark always begins a lexeme. -/
theorem begins_bang (before : List Char) : Begins before '!' where
  not_blank := by decide
  letter h := absurd h (by decide)
  digit h := absurd h (by decide)
  equals h := absurd h (by decide)

/-! ## Runs of equals signs -/

/-- A run of equals signs. -/
def equalsRun (m : Nat) : String :=
  String.ofList (List.replicate m '=')

/-- The tokens of a run of equals signs: comparisons, and an assignment if a sign is left. -/
def runTokens (m : Nat) : List Token :=
  List.replicate (m / 2) ⟨.symbol .equal, "=="⟩ ++ List.replicate (m % 2) ⟨.symbol .assign, "="⟩

theorem runTokens_add_two (m : Nat) :
    runTokens (m + 2) = ⟨.symbol .equal, "=="⟩ :: runTokens m := by
  rw [runTokens, Nat.add_div_right m (by decide), Nat.add_mod_right, List.replicate_succ]
  rfl

/-- Equals signs are not joined to signs that are even in number. -/
theorem not_glues_of_even (heven : signsAtEnd a.toList % 2 = 0)
    (hb : ∀ c ∈ b.toList.head?, c = '=') : ¬ Glues a b := by
  cases hhead : b.toList.head? with
  | none =>
    apply not_glues_of_head?
    rw [hhead]
    rintro c ⟨⟩
  | some c =>
    have hequals : c = '=' := hb c hhead
    subst hequals
    have hglue := ((begins_iff hhead).mp (begins_equals heven)).2
    rwa [String.ofList_toList] at hglue

/-- An equals sign is joined to nothing but another equals sign. -/
theorem not_glues_of_getLast? (ha : a.toList.getLast? = some '=')
    (hb : b.toList.head? ≠ some '=') : ¬ Glues a b := by
  intro h
  rcases h with ⟨x, y, hx, -, hxy⟩ | ⟨hy, -⟩
  · cases ha.symm.trans hx
    rcases hxy with ⟨hletter, -⟩ | ⟨hdigit, -⟩
    · exact absurd hletter (by decide)
    · exact absurd hdigit (by decide)
  · exact hb hy

theorem head?_equalsRun (m : Nat) : ∀ c ∈ (equalsRun m).toList.head?, c = '=' := by
  intro c hc
  rw [equalsRun, String.toList_ofList] at hc
  exact List.eq_of_mem_replicate (List.mem_of_mem_head? hc)

/-- The signs of a run are joined in pairs from the first on, behind a symbol that leaves
nothing to join. -/
theorem dropLast_tokenize_text_append {s : Symbol} (heven : signsAtEnd s.text.toList % 2 = 0)
    (m : Nat) :
    (tokenize (s.text ++ equalsRun m)).dropLast =
      ⟨.symbol s, s.text⟩ :: (tokenize (equalsRun m)).dropLast := by
  rw [dropLast_tokenize, properLexemes_append (not_glues_of_even heven (head?_equalsRun m)),
    properLexemes_text, List.map_append, List.map_map, dropLast_tokenize]
  rfl

/-- The tokens of a run of equals signs. -/
theorem tokenize_equalsRun (m : Nat) : (tokenize (equalsRun m)).dropLast = runTokens m := by
  -- Two signs are one comparison, behind which the rest of the run is scanned anew.
  induction m using Nat.twoStepInduction with
  | zero =>
    have hnil : IsGap (equalsRun 0).toList := by
      decide
    rw [dropLast_tokenize, properLexemes_of_isGap hnil]
    rfl
  | one =>
    have hone : equalsRun 1 = Symbol.assign.text := rfl
    rw [dropLast_tokenize, hone, properLexemes_text]
    rfl
  | more m ih _ =>
    have hsplit : equalsRun (m + 2) = Symbol.equal.text ++ equalsRun m := by
      rw [← String.toList_inj, String.toList_append, equalsRun, equalsRun]
      simp [List.replicate_succ, Symbol.text]
    rw [hsplit, dropLast_tokenize_text_append (by decide), ih, runTokens_add_two]
    rfl

/-- The tokens of an exclamation mark and a run of equals signs. -/
theorem tokenize_bang_equalsRun (m : Nat) :
    (tokenize ("!" ++ equalsRun (m + 1))).dropLast =
      ⟨.symbol .notEqual, "!="⟩ :: runTokens m := by
  have hsplit : "!" ++ equalsRun (m + 1) = Symbol.notEqual.text ++ equalsRun m := by
    rw [← String.toList_inj, String.toList_append, String.toList_append, equalsRun, equalsRun]
    simp [List.replicate_succ, Symbol.text]
  rw [hsplit, dropLast_tokenize_text_append (by decide), tokenize_equalsRun]
  rfl

/-- Signs between two texts have their own tokens if a lexeme begins at the first of them and
the last is an equals sign that is not joined to another. -/
theorem tokenize_signs_between {signs : String} {c : Char} (hhead : signs.toList.head? = some c)
    (hbegins : Begins a.toList c) (hlast : signs.toList.getLast? = some '=')
    (hb : b.toList.head? ≠ some '=') :
    tokenize (a ++ signs ++ b) =
      (tokenize a).dropLast ++ (tokenize signs).dropLast ++ tokenize b := by
  have hbehind : (signs ++ b).toList.head? = some c := by
    rw [String.toList_append, List.head?_append, hhead]
    rfl
  have hfirst : ¬ Glues a (signs ++ b) := by
    have hglue := ((begins_iff hbehind).mp hbegins).2
    rwa [String.ofList_toList] at hglue
  rw [String.append_assoc, tokenize_append hfirst,
    tokenize_append (not_glues_of_getLast? hlast hb), List.append_assoc]

/-- A text that ends in neither of the two characters has no signs at its end. -/
theorem signsAtEnd_eq_zero {text : List Char}
    (h : ∀ x ∈ text.getLast?, x ≠ '=' ∧ x ≠ '!') : signsAtEnd text = 0 := by
  rcases List.eq_nil_or_concat text with rfl | ⟨before, x, htext⟩
  · rfl
  · rw [List.concat_eq_append] at htext
    subst htext
    have hx := h x List.getLast?_concat
    rw [signsAtEnd_append_of_ne hx.1, if_neg hx.2]

/-- A lexeme begins at a character exactly if that is no blank, is a letter or a digit only
behind a character of another class, and is an equals sign only behind an even number of signs.
So the equals signs of a run are joined in pairs, where an exclamation mark in front of them
takes the first. -/
theorem lexeme_starts_iff_begins :
    (∀ (source : String) (i : Nat) (before : List Char) (c : Char) (after : List Char),
        Utf8.splitAt? i source.toList = some (before, c :: after) →
          ((∃ l ∈ lexemes source, l.isEof = false ∧ l.span.start = i) ↔ Begins before c)) ∧
      ∀ (a b : String) (m : Nat), 0 < m → b.toList.head? ≠ some '=' →
        ((∀ x ∈ a.toList.getLast?, x ≠ '=' ∧ x ≠ '!') →
            tokenize (a ++ equalsRun m ++ b) =
              (tokenize a).dropLast ++ runTokens m ++ tokenize b) ∧
          tokenize (a ++ ("!" ++ equalsRun m) ++ b) =
            (tokenize a).dropLast ++ ⟨.symbol .notEqual, "!="⟩ :: runTokens (m - 1) ++
              tokenize b := by
  constructor
  · intro source i before c after hsplit
    have hparts := Utf8.eq_append_of_splitAt? hsplit
    rcases Utf8.splitAt?_eq_some_iff.mp hsplit with ⟨-, rfl⟩
    have hhead : (String.ofList (c :: after)).toList.head? = some c := by
      rw [String.toList_ofList]
      rfl
    have hstart := exists_start_iff (a := String.ofList before) (b := String.ofList (c :: after))
    rw [← hparts, String.toList_ofList, hhead] at hstart
    rw [begins_iff hhead]
    simpa [properLexemes, and_assoc] using hstart
  · intro a b m hm hb
    obtain ⟨n, rfl⟩ : ∃ n, m = n + 1 := Nat.exists_eq_add_one.mpr hm
    have hhead : (equalsRun (n + 1)).toList.head? = some '=' := by
      rw [equalsRun, String.toList_ofList, List.replicate_succ, List.head?_cons]
    have hlast : (equalsRun (n + 1)).toList.getLast? = some '=' := by
      rw [equalsRun, String.toList_ofList, List.replicate_succ', List.getLast?_concat]
    constructor
    · intro ha
      have hbegins : Begins a.toList '=' := begins_equals (by rw [signsAtEnd_eq_zero ha])
      rw [tokenize_signs_between hhead hbegins hlast hb, tokenize_equalsRun]
    · have hhead' : ("!" ++ equalsRun (n + 1)).toList.head? = some '!' := by
        rw [String.toList_append]
        rfl
      have hlast' : ("!" ++ equalsRun (n + 1)).toList.getLast? = some '=' := by
        rw [String.toList_append, List.getLast?_append, hlast]
        rfl
      rw [tokenize_signs_between hhead' (begins_bang _) hlast' hb, tokenize_bang_equalsRun]
      rfl

/-- Of the signs behind an exclamation mark, the second and the third begin a lexeme
together. -/
theorem comparison_begins_behind_bang :
    Utf8.splitAt? 3 "x!===1".toList = some (['x', '!', '='], ['=', '=', '1']) ∧
      (∃ l ∈ lexemes "x!===1", l.isEof = false ∧ l.span.start = 3) ∧
      0 < 3 ∧ "1".toList.head? ≠ some '=' ∧ (∀ x ∈ "x".toList.getLast?, x ≠ '=' ∧ x ≠ '!') ∧
      tokenize ("x" ++ equalsRun 3 ++ "1") =
        (tokenize "x").dropLast ++ runTokens 3 ++ tokenize "1" ∧
      tokenize ("x" ++ ("!" ++ equalsRun 3) ++ "1") =
        (tokenize "x").dropLast ++ ⟨.symbol .notEqual, "!="⟩ :: runTokens 2 ++ tokenize "1" := by
  have hsplit : Utf8.splitAt? 3 "x!===1".toList = some (['x', '!', '='], ['=', '=', '1']) := by
    decide
  have hbegins : Begins ['x', '!', '='] '=' := begins_equals (by decide)
  have hlast : ∀ x ∈ "x".toList.getLast?, x ≠ '=' ∧ x ≠ '!' := by
    rintro x ⟨rfl⟩
    decide
  have hruns := lexeme_starts_iff_begins.2 "x" "1" 3 (by decide) (by decide)
  exact ⟨hsplit, (lexeme_starts_iff_begins.1 _ _ _ _ _ hsplit).mpr hbegins, by decide, by decide,
    hlast, hruns.1 hlast, hruns.2⟩

end MonkeyTokens
