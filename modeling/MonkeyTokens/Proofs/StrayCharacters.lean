import MonkeyTokens.Program
import MonkeyTokens.Proofs.Decoding
import MonkeyTokens.Script

/-!
# Stray characters

Whether a character is illegal is decided by the character alone.  The scanner finds its
illegal lexemes behind blanks, words and numbers of any length, and a character of lookahead;
still they are those of a scan that looks at one character after the other and remembers
nothing but the place.  So every count of them is the number of stray characters, and a
file fails exactly if it has one.

Main results:

- Theorem `strays_append`: the stray characters of two texts put together.
- Theorem `Reading.filter_isIllegal`: the illegal lexemes of a reading are the stray
  characters that it passes.
- Theorem `illegalLines_listing`: a listing has one line for each stray character.
- Theorem `illegal_character_by_character`: all that is said of illegal characters is said
  of stray ones.
-/

namespace MonkeyTokens

/-! ## One character after the other -/

/-- The characters of a text, each with the span it takes, if the text begins at the byte
`offset` on the line `line`. -/
def charSpans (offset line : Nat) : List Char → List (Char × Span)
  | [] => []
  | c :: text =>
    (c, ⟨offset, offset + c.utf8Size, line⟩) ::
      charSpans (offset + c.utf8Size) (line + [c].count '\n') text

/-- The stray characters of a text with their spans. -/
def strays (offset line : Nat) (text : List Char) : List (Char × Span) :=
  (charSpans offset line text).filter fun x => IsStray x.1

/-- The illegal lexeme that a stray character makes. -/
def strayLexeme (x : Char × Span) : Lexeme where
  token := ⟨.illegal, String.singleton x.1⟩
  span := x.2

/-- The number of stray characters. -/
def strayCount (text : List Char) : Nat :=
  text.countP fun c => IsStray c

variable {source : String} {text : List Char} {offset line : Nat}

theorem charSpans_append (offset line : Nat) (a b : List Char) :
    charSpans offset line (a ++ b) =
      charSpans offset line a ++ charSpans (offset + Utf8.width a) (line + a.count '\n') b := by
  induction a generalizing offset line with
  | nil => rfl
  | cons c a ih =>
    have hcount : (c :: a).count '\n' = [c].count '\n' + a.count '\n' := by
      rw [← List.singleton_append, List.count_append]
    rw [List.cons_append, charSpans, ih, charSpans, List.cons_append, Utf8.width_cons, hcount,
      Nat.add_assoc, Nat.add_assoc]

theorem map_fst_charSpans (offset line : Nat) (text : List Char) :
    (charSpans offset line text).map Prod.fst = text := by
  induction text generalizing offset line with
  | nil => rfl
  | cons c text ih => rw [charSpans, List.map_cons, ih]

/-- The stray characters of two texts put together are those of the first and those of the
second, moved behind it. -/
theorem strays_append (offset line : Nat) (a b : List Char) :
    strays offset line (a ++ b) =
      strays offset line a ++ strays (offset + Utf8.width a) (line + a.count '\n') b := by
  rw [strays, charSpans_append, List.filter_append]
  rfl

theorem length_strays (offset line : Nat) (text : List Char) :
    (strays offset line text).length = strayCount text := by
  conv => rhs; rw [← map_fst_charSpans offset line text]
  rw [strays, strayCount, List.countP_map, List.countP_eq_length_filter]
  rfl

theorem strays_eq_nil (h : ∀ c ∈ text, ¬ IsStray c) : strays offset line text = [] := by
  rw [← List.length_eq_zero_iff, length_strays, strayCount, List.countP_eq_zero]
  simpa using h

theorem strays_singleton {c : Char} (h : IsStray c) :
    strays offset line [c] = [(c, ⟨offset, offset + c.utf8Size, line⟩)] := by
  simp [strays, charSpans, h]

theorem strayCount_append (a b : List Char) : strayCount (a ++ b) = strayCount a + strayCount b :=
  List.countP_append

/-! ## The scanner -/

/-- The characters of a literal are stray exactly if its kind is illegal. -/
theorem Kind.Fits.isStray_iff {k : Kind} {c : Char} (h : k.Fits text) (hc : c ∈ text) :
    IsStray c ↔ k = .illegal := by
  rw [← CharClass.of_eq_foreign_iff, h.charClass_eq hc]
  cases k <;> simp [charClass]

/-- Blanks are not stray. -/
theorem not_isStray_of_isGap (h : IsGap text) : ∀ c ∈ text, ¬ IsStray c := by
  intro c hc hstray
  exact hstray.1 (h c hc)

/-- A lexeme is illegal exactly if it passes a stray character, and it passes no other. -/
theorem Cursor.filter_isIllegal_lexemeAfter (c : Cursor) (gap : List Char) {m : Munch}
    (h : m.Maximal) :
    [c.lexemeAfter gap m].filter Lexeme.isIllegal =
      (strays (c.offset + Utf8.width gap) (c.line + gap.count '\n') m.text).map strayLexeme := by
  by_cases hkind : m.kind = .illegal
  · have hfits := h.1
    rw [hkind] at hfits
    rcases hfits with ⟨x, htext, hstray⟩
    rw [htext, strays_singleton hstray]
    simp [lexemeAfter, strayLexeme, Lexeme.isIllegal, Token.isIllegal, hkind, htext]
  · have hnone : ∀ x ∈ m.text, ¬ IsStray x := by
      intro x hx
      rw [h.1.isStray_iff hx]
      exact hkind
    rw [strays_eq_nil hnone]
    simp [lexemeAfter, Lexeme.isIllegal, Token.isIllegal, hkind]

/-- The illegal lexemes of a reading are the stray characters that it passes. -/
theorem Reading.filter_isIllegal {c : Cursor} {lexemes : List Lexeme} (h : Reading c lexemes) :
    lexemes.filter Lexeme.isIllegal = (strays c.offset c.line c.rest).map strayLexeme := by
  induction h with
  | @done c hgap =>
    rw [strays_eq_nil (not_isStray_of_isGap hgap)]
    rfl
  | @more c gap m later hahead hlater ih =>
    -- The three parts of what is left: blanks, the literal, and what comes behind it.
    have hbehind : (c.behind gap m).offset = c.offset + Utf8.width gap + Utf8.width m.text ∧
        (c.behind gap m).line = c.line + gap.count '\n' + m.text.count '\n' := by
      simp [Cursor.behind, Nat.add_assoc]
    rw [hbehind.1, hbehind.2] at ih
    rw [← List.singleton_append, List.filter_append, hahead.rest_eq, strays_append, strays_append,
      strays_eq_nil (not_isStray_of_isGap hahead.isGap), List.nil_append, List.map_append,
      c.filter_isIllegal_lexemeAfter gap hahead.maximal, ih]
    rfl

/-- The illegal lexemes of a text are its stray characters. -/
theorem filter_isIllegal_lexemes (source : String) :
    (lexemes source).filter Lexeme.isIllegal = (strays 0 1 source.toList).map strayLexeme :=
  (reading_lexemes (.atStart source)).filter_isIllegal

theorem countP_isIllegal_eq_strayCount (source : String) :
    (lexemes source).countP Lexeme.isIllegal = strayCount source.toList := by
  rw [List.countP_eq_length_filter, filter_isIllegal_lexemes, List.length_map, length_strays]

theorem length_diagnose_lexemes (path source : String) :
    (diagnose path source (lexemes source)).length = strayCount source.toList := by
  rw [length_diagnose, countP_isIllegal_eq_strayCount]

/-! ## Listings -/

/-- How a line begins that shows an illegal character. -/
def illegalMark : List Char :=
  "\x7bType:ILLEGAL ".toList

/-- The number of lines of a text that show an illegal character. -/
def illegalLines (text : String) : Nat :=
  (text.toList.splitOn '\n').countP illegalMark.isPrefixOf

/-- Up to a separator that is in neither of two words, one begins like the other only if they
are the same. -/
theorem append_separator_isPrefix_iff {separator : Char} {a b : List Char}
    (ha : separator ∉ a) (hb : separator ∉ b) (text : List Char) :
    a ++ [separator] <+: b ++ separator :: text ↔ a = b := by
  constructor
  · intro h
    rcases h with ⟨rest, hrest⟩
    rw [List.append_assoc, List.singleton_append] at hrest
    have hsplit := congrArg (List.splitOn separator) hrest
    rw [List.splitOn_append_cons_self_of_not_mem ha,
      List.splitOn_append_cons_self_of_not_mem hb] at hsplit
    exact (List.cons.inj hsplit).1
  · intro h
    rw [h]
    exact ⟨text, by simp⟩

/-- Only the kind of the illegal lexemes is named in the mark. -/
theorem illegalMark_isPrefixOf_iff (k : Kind) (text : List Char) :
    illegalMark.isPrefixOf ("\x7bType:".toList ++ k.name.toList ++ ' ' :: text) = true ↔
      k = .illegal := by
  have hspace : ' ' ∈ blankChars := by decide
  have hmark : illegalMark = "\x7bType:".toList ++ (Kind.illegal.name.toList ++ [' ']) := by
    decide
  rw [List.isPrefixOf_iff_prefix, hmark, List.append_assoc, List.prefix_append_right_inj,
    append_separator_isPrefix_iff (Kind.not_mem_name _ hspace) (Kind.not_mem_name _ hspace),
    String.toList_inj]
  constructor
  · intro h
    exact (Kind.name_injective _ (Kind.mem_all _) _ (Kind.mem_all _) h).symm
  · intro h
    rw [h]

/-- The line of a lexeme shows whether it is illegal. -/
theorem Lexeme.illegalMark_isPrefixOf_line (showSpans : Bool) (l : Lexeme) :
    illegalMark.isPrefixOf (l.line showSpans) = l.isIllegal := by
  rw [Bool.eq_iff_iff, isIllegal, Token.isIllegal, beq_iff_eq]
  cases showSpans with
  | false =>
    rw [line, if_neg Bool.false_ne_true, Token.toList_render]
    exact illegalMark_isPrefixOf_iff l.token.kind _
  | true =>
    rw [line, if_pos rfl, Token.toList_render, List.append_assoc, List.cons_append]
    exact illegalMark_isPrefixOf_iff l.token.kind _

/-- The end of a text is not listed, but it is not illegal either. -/
theorem countP_isIllegal_properLexemes (source : String) :
    (properLexemes source).countP Lexeme.isIllegal = (lexemes source).countP Lexeme.isIllegal := by
  conv => rhs; rw [lexemes_eq_append, List.countP_append]
  rfl

/-- A listing has one line for each stray character. -/
theorem illegalLines_listing (showSpans : Bool) (source : String) :
    illegalLines (listing showSpans (lexemes source)) = strayCount source.toList := by
  have hlines : ∀ line ∈ (properLexemes source).map (Lexeme.line showSpans), '\n' ∉ line := by
    intro line hline
    rcases List.mem_map.mp hline with ⟨l, hl, rfl⟩
    exact (unspaced_of_mem_properLexemes hl).lineFeed_not_mem_line showSpans
  have hmark : illegalMark.isPrefixOf ∘ Lexeme.line showSpans = Lexeme.isIllegal :=
    funext (Lexeme.illegalMark_isPrefixOf_line showSpans)
  -- Behind the last line feed stands an empty piece, which is no line and does not count.
  have hlast : List.countP illegalMark.isPrefixOf [[]] = 0 := rfl
  rw [illegalLines, toList_listing, listed_lexemes, splitOn_lines hlines, List.countP_append,
    List.countP_map, hmark, hlast, countP_isIllegal_properLexemes, countP_isIllegal_eq_strayCount]
  rfl

/-! ## The program -/

/-- A file whose bytes are no text is not a script. -/
theorem runScript_of_decode?_eq_none {content : List UInt8} (h : Utf8.decode? content = none)
    (path : String) (showSpans : Bool) :
    runScript path showSpans (.ok content) .unbounded = .unreadable path .notText := by
  have htext : textOf content = .error .notText := by
    rw [textOf, h]
  simp only [runScript, bind, Except.bind, htext]

/-- The illegal lexemes of a text are its stray characters, one by one.  The number that a
script is said to have, its diagnostics and the lines that it prints about them are as many,
and as many as in two parts of the script.  A file fails exactly if it has one, or is no
text. -/
theorem illegal_character_by_character :
    (∀ source,
      (Scanner.ofSource source).drain.filter Lexeme.isIllegal =
        (strays 0 1 source.toList).map strayLexeme) ∧
      (∀ path source showSpans,
        (Script.run (.ofRoom? none) path source showSpans).illegal =
            .ok (strayCount source.toList) ∧
          (Script.run (.ofRoom? none) path source showSpans).diagnostics.length =
            strayCount source.toList ∧
          (diagnose unnamedPath source (lexemes source)).length = strayCount source.toList ∧
          ∃ output,
            (Script.run (.ofRoom? none) path source showSpans).sink.taken.toList =
                Utf8.encode output ∧
              illegalLines output = strayCount source.toList) ∧
      (∀ path a b showSpans,
        (Script.run (.ofRoom? none) path (a ++ b) showSpans).illegal =
          .ok (strayCount a.toList + strayCount b.toList)) ∧
      ∀ (parse : List String → Except Stop Options) (i : Invocation) path showSpans content,
        parse i.arguments = .ok ⟨some path, showSpans⟩ → i.readBytes path = .ok content →
          (∀ source, Utf8.decode? content = some source →
            (i.runWith parse).exitCode = if 0 < strayCount source.toList then 65 else 0) ∧
          (Utf8.decode? content = none →
            (i.runWith parse).exitCode = 1 ∧ (i.runWith parse).printed = []) := by
  refine ⟨?_, ?_, ?_, ?_⟩
  · intro source
    rw [Scanner.drain_ofSource]
    exact filter_isIllegal_lexemes source
  · intro path source showSpans
    have hsink : (Script.run (.ofRoom? none) path source showSpans).sink.taken.toList =
        Utf8.encode (listing showSpans (lexemes source)) :=
      Outcome.printed_checked path source showSpans
    have hdiagnostics : (Script.run (.ofRoom? none) path source showSpans).diagnostics =
        diagnose path source (lexemes source) :=
      Outcome.diagnostics_checked path source showSpans
    refine ⟨?_, ?_, length_diagnose_lexemes unnamedPath source, _, hsink,
      illegalLines_listing showSpans source⟩
    · rw [Script.run_unbounded rfl rfl, countP_isIllegal_eq_strayCount]
    · rw [hdiagnostics, length_diagnose_lexemes]
  · intro path a b showSpans
    rw [Script.run_unbounded rfl rfl, countP_isIllegal_eq_strayCount, String.toList_append,
      strayCount_append]
  · intro parse i path showSpans content hparse hread
    have hrun := Invocation.runWith_of_script hparse hread
    constructor
    · intro source hsource
      rw [hrun, Utf8.decode?_eq_some_iff.mp hsource, runScript_encode, Outcome.exitCode_checked,
        countP_isIllegal_eq_strayCount]
      rfl
    · intro hnone
      rw [hrun, runScript_of_decode?_eq_none hnone]
      exact ⟨rfl, rfl⟩

/-- A letter that is not of ASCII is stray, and the byte it begins with is no text. -/
theorem exitCode_of_accented_letter :
    CommandLine.parse ["/a.mk"] = .ok ⟨some "/a.mk", false⟩ ∧
      Utf8.decode? [0xC3, 0xA9] = some "é" ∧
      Utf8.decode? [0xC3] = none ∧
      (Invocation.run ⟨["/a.mk"], fun _ => .ok [0xC3, 0xA9], [], false⟩).exitCode = 65 ∧
      (Invocation.run ⟨["/a.mk"], fun _ => .ok [0xC3], [], false⟩).exitCode = 1 := by
  have hparse : CommandLine.parse ["/a.mk"] = .ok ⟨some "/a.mk", false⟩ := by
    rfl
  have hletter : Utf8.decode? [0xC3, 0xA9] = some "é" := by
    rw [Utf8.decode?_eq_some_iff]
    decide
  have hbyte : Utf8.decode? [0xC3] = none := by
    decide
  have hexit := illegal_character_by_character.2.2.2 CommandLine.parse
  refine ⟨hparse, hletter, hbyte, ?_, ?_⟩
  · refine ((hexit ⟨["/a.mk"], fun _ => .ok [0xC3, 0xA9], [], false⟩ "/a.mk" false _ hparse
      rfl).1 _ hletter).trans ?_
    decide
  · exact ((hexit ⟨["/a.mk"], fun _ => .ok [0xC3], [], false⟩ "/a.mk" false _ hparse rfl).2
      hbyte).1

end MonkeyTokens
