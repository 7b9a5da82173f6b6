import MonkeyTokens.Proofs.ProperLexemes

/-!
# Decoding listings

A listing does not mark where a literal ends, and an illegal literal can be any character
but those of the alphabet.  Still the lexemes of a text can be read back from it: no
literal holds a blank, so a line feed ends an entry and a space ends a field, and within
its field a literal is what stands between the words in front and the brace behind it.

Main results:

- Theorem `number?_repr`: decimal numbers are read back.
- Theorem `Kind.ofName?_name`: kinds are read back from their names.
- Theorem `Lexeme.ofLine?_line`: lexemes without blanks are read back from their lines.
- Theorem `decodeLines?_lines`: lines are read back from a listing.
- Theorem `listing_decodable`: the lexemes of a text are read back from their listing.
-/

namespace MonkeyTokens

/-! ## Decoders -/

/-- What stands behind the beginning and in front of the end of a text. -/
def inside? (front back text : List Char) : Option (List Char) :=
  let body := (text.drop front.length).take (text.length - front.length - back.length)
  if front ++ body ++ back = text then some body else none

/-- The number with the given decimal digits. -/
def number? (digits : List Char) : Option Nat :=
  if digits.all Char.isDigit then some (Nat.ofDigitChars 10 digits 0) else none

/-- All symbols. -/
def Symbol.all : List Symbol :=
  [assign, plus, minus, bang, asterisk, slash, less, greater, equal, notEqual, comma,
    semicolon, leftParen, rightParen, leftBrace, rightBrace]

/-- All kinds. -/
def Kind.all : List Kind :=
  [illegal, eof, ident, int] ++ Symbol.all.map symbol ++ Keyword.all.map keyword

/-- The kind with the given name. -/
def Kind.ofName? (name : List Char) : Option Kind :=
  Kind.all.find? (fun k => k.name.toList == name)

/-- The token whose kind and literal are told by two fields. -/
def Token.ofFields? (kindField literalField : List Char) : Option Token := do
  let name ← inside? "\x7bType:".toList [] kindField
  let kind ← Kind.ofName? name
  let literal ← inside? "Literal:".toList ['\x7d'] literalField
  some ⟨kind, String.ofList literal⟩

/-- The span that is told by a field. -/
def Span.ofField? (field : List Char) : Option Span :=
  match field.splitOn '@' with
  | [range, line] =>
    match range.splitOn '.' with
    | [start, [], stop] => do
      let start ← number? start
      let stop ← number? stop
      let line ← number? line
      some ⟨start, stop, line⟩
    | _ => none
  | _ => none

/-- The token that is told by a line. -/
def Token.ofLine? (line : List Char) : Option Token :=
  match line.splitOn ' ' with
  | [kindField, literalField] => ofFields? kindField literalField
  | _ => none

/-- The lexeme that is told by a line with a span. -/
def Lexeme.ofLine? (line : List Char) : Option Lexeme :=
  match line.splitOn ' ' with
  | [kindField, literalField, spanField] => do
    let token ← Token.ofFields? kindField literalField
    let span ← Span.ofField? spanField
    some ⟨token, span⟩
  | _ => none

/-- What the lines of a text tell, if each of them ends with a line feed. -/
def decodeLines? {α : Type} (ofLine? : List Char → Option α) (text : String) : Option (List α) :=
  (text.toList.splitOn '\n').dropLast.mapM ofLine?

/-- The tokens of a listing without spans. -/
def decodeTokens? (text : String) : Option (List Token) :=
  decodeLines? Token.ofLine? text

/-- The lexemes of a listing with spans. -/
def decodeLexemes? (text : String) : Option (List Lexeme) :=
  decodeLines? Lexeme.ofLine? text

/-! ## Fields -/

theorem inside?_append (front back body : List Char) :
    inside? front back (front ++ body ++ back) = some body := by
  have hlength : (front ++ body ++ back).length - front.length - back.length = body.length := by
    simp only [List.length_append]
    omega
  have hbody : ((front ++ body ++ back).drop front.length).take body.length = body := by
    rw [List.append_assoc, List.drop_left, List.take_left]
  simp only [inside?, hlength, hbody, if_true]

theorem isDigit_of_mem_repr {n : Nat} {c : Char} (hc : c ∈ n.repr.toList) :
    c.isDigit = true := by
  rw [Nat.toList_repr] at hc
  exact Nat.isDigit_of_mem_toDigits (by decide) (by decide) hc

/-- Decimal numbers are read back. -/
theorem number?_repr (n : Nat) : number? n.repr.toList = some n := by
  have hdigits : n.repr.toList.all Char.isDigit = true :=
    List.all_eq_true.mpr fun c hc => isDigit_of_mem_repr hc
  rw [number?, if_pos hdigits, Nat.toList_repr, Nat.ofDigitChars_ten_toDigits]

/-- A number does not hold a character that is not a digit. -/
theorem not_mem_repr {c : Char} (hc : c.isDigit = false) (n : Nat) : c ∉ n.repr.toList := by
  intro hmem
  rw [isDigit_of_mem_repr hmem] at hc
  cases hc

theorem Kind.mem_all (k : Kind) : k ∈ all := by
  cases k with
  | illegal | eof | ident | int => decide
  | symbol s => cases s <;> decide
  | keyword k => cases k <;> decide

/-- No two kinds have the same name. -/
theorem Kind.name_injective : ∀ j ∈ all, ∀ k ∈ all, j.name = k.name → j = k := by
  decide

/-- Kinds are read back from their names. -/
theorem Kind.ofName?_name (k : Kind) : ofName? k.name.toList = some k := by
  have hsome : (ofName? k.name.toList).isSome = true := by
    rw [ofName?, List.find?_isSome]
    exact ⟨k, mem_all k, beq_self_eq_true _⟩
  rcases Option.isSome_iff_exists.mp hsome with ⟨j, hj⟩
  have hname : j.name = k.name := by
    have hfound := List.find?_some hj
    exact String.toList_inj.mp (by simpa using hfound)
  rw [hj, name_injective j (mem_all j) k (mem_all k) hname]

/-- A token is read back from its fields, whatever its literal is. -/
theorem Token.ofFields?_fields (t : Token) :
    ofFields? ("\x7bType:".toList ++ t.kind.name.toList)
        ("Literal:".toList ++ t.literal.toList ++ ['\x7d']) = some t := by
  have hname := inside?_append "\x7bType:".toList [] t.kind.name.toList
  rw [List.append_nil] at hname
  simp only [ofFields?, hname, inside?_append, Kind.ofName?_name, String.ofList_toList,
    Option.bind_eq_bind, Option.bind_some]

/-- A span is read back from its field. -/
theorem Span.ofField?_render (s : Span) : ofField? s.render.toList = some s := by
  have hrange : '@' ∉ s.start.repr.toList ++ '.' :: ([] ++ '.' :: s.stop.repr.toList) := by
    simp only [List.mem_append, List.mem_cons, List.nil_append, not_or]
    exact ⟨not_mem_repr rfl _, by decide, by decide, not_mem_repr rfl _⟩
  have hrender : s.render.toList =
      (s.start.repr.toList ++ '.' :: ([] ++ '.' :: s.stop.repr.toList)) ++
        '@' :: s.line.repr.toList := by
    simp [render]
  have hsplit : (s.start.repr.toList ++ '.' :: ([] ++ '.' :: s.stop.repr.toList)).splitOn '.' =
      [s.start.repr.toList, [], s.stop.repr.toList] := by
    rw [List.splitOn_append_cons_self_of_not_mem (not_mem_repr rfl _),
      List.splitOn_append_cons_self_of_not_mem List.not_mem_nil,
      List.splitOn_eq_singleton (not_mem_repr rfl _)]
  rw [ofField?, hrender, List.splitOn_append_cons_self_of_not_mem hrange,
    List.splitOn_eq_singleton (not_mem_repr rfl _)]
  simp only [hsplit, number?_repr, Option.bind_eq_bind, Option.bind_some]

/-! ## Lines -/

/-- The line of a lexeme in a listing, without the line feed that ends it. -/
def Lexeme.line (showSpans : Bool) (l : Lexeme) : List Char :=
  if showSpans then l.token.render.toList ++ ' ' :: l.span.render.toList
  else l.token.render.toList

/-- Holds if no blank is in the literal of a lexeme. -/
def Lexeme.Unspaced (l : Lexeme) : Prop :=
  ∀ c ∈ l.token.literal.toList, c ∉ blankChars

theorem Lexeme.toList_entry (showSpans : Bool) (l : Lexeme) :
    (l.entry showSpans).toList = l.line showSpans ++ ['\n'] := by
  cases showSpans <;> simp [entry, line]

theorem Token.toList_render (t : Token) :
    t.render.toList =
      ("\x7bType:".toList ++ t.kind.name.toList) ++
        ' ' :: ("Literal:".toList ++ t.literal.toList ++ ['\x7d']) := by
  simp [render]

/-- No name of a kind holds a blank. -/
theorem Kind.not_mem_name (k : Kind) {c : Char} (hc : c ∈ blankChars) : c ∉ k.name.toList := by
  have hnames : ∀ k ∈ all, k.name.toList.all (fun c => !blankChars.contains c) = true := by
    decide
  intro hname
  simpa [hc] using List.all_eq_true.mp (hnames k (mem_all k)) c hname

/-- The field of the kind ends with the first space. -/
theorem Kind.not_mem_field (k : Kind) {c : Char} (hc : c ∈ blankChars) :
    c ∉ "\x7bType:".toList ++ k.name.toList := by
  have hfront : ∀ b ∈ blankChars, b ∉ "\x7bType:".toList := by
    simp [blankChars]
  rw [List.mem_append, not_or]
  exact ⟨hfront c hc, k.not_mem_name hc⟩

namespace Lexeme

variable {l : Lexeme} {c : Char}

/-- The field of a literal without blanks ends with the next space. -/
theorem Unspaced.not_mem_field (h : l.Unspaced) (hc : c ∈ blankChars) :
    c ∉ "Literal:".toList ++ l.token.literal.toList ++ ['\x7d'] := by
  have hfront : ∀ b ∈ blankChars, b ∉ "Literal:".toList ∧ b ∉ ['\x7d'] := by
    simp [blankChars]
  rw [List.mem_append, List.mem_append, not_or, not_or]
  exact ⟨⟨(hfront c hc).1, fun hliteral => h c hliteral hc⟩, (hfront c hc).2⟩

/-- A span has no blanks. -/
theorem not_mem_render_span (s : Span) (hc : c ∈ blankChars) : c ∉ s.render.toList := by
  have hmarks : ∀ b ∈ blankChars, b.isDigit = false ∧ b ≠ '.' ∧ b ≠ '@' := by
    simp [blankChars]
  rcases hmarks c hc with ⟨hdigit, hdot, hat⟩
  have hnumber := not_mem_repr hdigit
  simp only [Span.render, String.toList_append, List.mem_append, not_or]
  refine ⟨⟨⟨⟨hnumber _, ?_⟩, hnumber _⟩, ?_⟩, hnumber _⟩
  · simpa using hdot
  · simpa using hat

/-- The line of a lexeme without blanks is one line. -/
theorem Unspaced.lineFeed_not_mem_line (h : l.Unspaced) (showSpans : Bool) :
    '\n' ∉ l.line showSpans := by
  have hfeed : '\n' ∈ blankChars := by decide
  have htoken : '\n' ∉ l.token.render.toList := by
    rw [Token.toList_render, List.mem_append, List.mem_cons, not_or, not_or]
    exact ⟨Kind.not_mem_field _ hfeed, by decide, h.not_mem_field hfeed⟩
  cases showSpans with
  | false => exact htoken
  | true =>
    rw [line, if_pos rfl, List.mem_append, List.mem_cons, not_or, not_or]
    exact ⟨htoken, by decide, not_mem_render_span _ hfeed⟩

/-- The tokens of lexemes without blanks are read back from their lines. -/
theorem Unspaced.ofLine?_token (h : l.Unspaced) :
    Token.ofLine? (l.line false) = some l.token := by
  have hspace : ' ' ∈ blankChars := by decide
  rw [Token.ofLine?, line, if_neg Bool.false_ne_true, Token.toList_render,
    List.splitOn_append_cons_self_of_not_mem (Kind.not_mem_field _ hspace),
    List.splitOn_eq_singleton (h.not_mem_field hspace)]
  exact Token.ofFields?_fields l.token

/-- Lexemes without blanks are read back from their lines. -/
theorem ofLine?_line (h : l.Unspaced) : ofLine? (l.line true) = some l := by
  have hspace : ' ' ∈ blankChars := by decide
  rw [ofLine?, line, if_pos rfl, Token.toList_render, List.append_assoc, List.cons_append,
    List.splitOn_append_cons_self_of_not_mem (Kind.not_mem_field _ hspace),
    List.splitOn_append_cons_self_of_not_mem (h.not_mem_field hspace),
    List.splitOn_eq_singleton (not_mem_render_span _ hspace)]
  simp only [Token.ofFields?_fields, Span.ofField?_render, Option.bind_eq_bind, Option.bind_some]

end Lexeme

/-! ## Listings -/

/-- Lines, each ended by a line feed, are split off again; behind the last of them stands
nothing. -/
theorem splitOn_lines {lines : List (List Char)} (h : ∀ line ∈ lines, '\n' ∉ line) :
    (lines.flatMap (· ++ ['\n'])).splitOn '\n' = lines ++ [[]] := by
  induction lines with
  | nil => rfl
  | cons line lines ih =>
    rcases List.forall_mem_cons.mp h with ⟨hline, hlines⟩
    rw [List.flatMap_cons, List.append_assoc, List.singleton_append,
      List.splitOn_append_cons_self_of_not_mem hline, ih hlines, List.cons_append]

/-- What lines tell is read back from the text of the lines. -/
theorem decodeLines?_lines {α β : Type} {ofLine? : List Char → Option α} {line : β → List Char}
    {told : β → α} {items : List β} {text : String}
    (htext : text.toList = (items.map line).flatMap (· ++ ['\n']))
    (hline : ∀ b ∈ items, '\n' ∉ line b) (htold : ∀ b ∈ items, ofLine? (line b) = some (told b)) :
    decodeLines? ofLine? text = some (items.map told) := by
  have hlines : ∀ l ∈ items.map line, '\n' ∉ l := by
    simpa using hline
  rw [decodeLines?, htext, splitOn_lines hlines, List.dropLast_concat]
  clear htext hline hlines
  induction items with
  | nil => rfl
  | cons b items ih =>
    rcases List.forall_mem_cons.mp htold with ⟨hb, hitems⟩
    rw [List.map_cons, List.mapM_cons, hb, ih hitems]
    rfl

/-- Lexemes without blanks have one line feed each. -/
theorem count_lineFeed_lines (showSpans : Bool) {lexemes : List Lexeme}
    (h : ∀ l ∈ lexemes, l.Unspaced) :
    ((lexemes.map (Lexeme.line showSpans)).flatMap (· ++ ['\n'])).count '\n' =
      lexemes.length := by
  induction lexemes with
  | nil => rfl
  | cons l later ih =>
    rcases List.forall_mem_cons.mp h with ⟨hl, hlater⟩
    have hline : (l.line showSpans).count '\n' = 0 :=
      List.count_eq_zero.mpr (hl.lineFeed_not_mem_line showSpans)
    rw [List.map_cons, List.flatMap_cons, List.count_append, List.count_append, hline, ih hlater]
    simp [Nat.add_comm]

theorem toList_listing (showSpans : Bool) (lexemes : List Lexeme) :
    (listing showSpans lexemes).toList =
      ((listed lexemes).map (Lexeme.line showSpans)).flatMap (· ++ ['\n']) := by
  rw [listing, String.toList_join, entries, List.flatMap_map, List.flatMap_map]
  simp only [Lexeme.toList_entry]

/-! ## Listings of texts -/

/-- No literal of a lexeme of a text holds a blank. -/
theorem unspaced_of_mem_properLexemes {source : String} {l : Lexeme}
    (hl : l ∈ properLexemes source) : l.Unspaced := by
  intro c hc
  exact (placed_of_mem_properLexemes hl).fits.not_mem_blankChars hc

variable (source : String)

/-- The tokens of a text are read back from its listing without spans. -/
theorem decodeTokens?_listing :
    decodeTokens? (listing false (lexemes source)) =
      some ((properLexemes source).map Lexeme.token) := by
  have htext := toList_listing false (lexemes source)
  rw [listed_lexemes] at htext
  apply decodeLines?_lines htext
  · intro l hl
    exact (unspaced_of_mem_properLexemes hl).lineFeed_not_mem_line false
  · intro l hl
    exact (unspaced_of_mem_properLexemes hl).ofLine?_token

/-- The lexemes of a text are read back from its listing with spans. -/
theorem decodeLexemes?_listing :
    decodeLexemes? (listing true (lexemes source)) = some (properLexemes source) := by
  have htext := toList_listing true (lexemes source)
  rw [listed_lexemes] at htext
  have hdecoded : decodeLexemes? (listing true (lexemes source)) =
      some ((properLexemes source).map id) := by
    apply decodeLines?_lines htext
    · intro l hl
      exact (unspaced_of_mem_properLexemes hl).lineFeed_not_mem_line true
    · intro l hl
      exact Lexeme.ofLine?_line (unspaced_of_mem_properLexemes hl)
  rwa [List.map_id] at hdecoded

/-- A listing has one line feed for each lexeme of the text. -/
theorem count_lineFeed_listing (showSpans : Bool) :
    (listing showSpans (lexemes source)).toList.count '\n' = (properLexemes source).length := by
  rw [toList_listing, listed_lexemes]
  exact count_lineFeed_lines showSpans fun l hl => unspaced_of_mem_properLexemes hl

/-- Without spans, a listing depends on the tokens alone. -/
theorem listing_false_eq {a b : String}
    (h : (properLexemes a).map Lexeme.token = (properLexemes b).map Lexeme.token) :
    listing false (lexemes a) = listing false (lexemes b) := by
  rw [listing, listing, entries_lexemes_false, entries_lexemes_false, h]

/-- The tokens of a text, or its lexemes, are read back from its listing.  So two texts
have the same listing exactly when they have the same tokens, or with spans the same
lexemes.  A listing has as many line feeds as lexemes. -/
theorem listing_decodable :
    (∀ source,
      decodeTokens? (listing false (lexemes source)) =
          some ((properLexemes source).map Lexeme.token) ∧
        decodeLexemes? (listing true (lexemes source)) = some (properLexemes source)) ∧
      (∀ a b,
        (listing false (lexemes a) = listing false (lexemes b) ↔ tokenize a = tokenize b) ∧
          (listing true (lexemes a) = listing true (lexemes b) ↔
            properLexemes a = properLexemes b)) ∧
      ∀ source showSpans,
        (listing showSpans (lexemes source)).toList.count '\n' =
          (properLexemes source).length := by
  refine ⟨?_, ?_, count_lineFeed_listing⟩
  · intro source
    exact ⟨decodeTokens?_listing source, decodeLexemes?_listing source⟩
  · intro a b
    constructor
    · rw [tokenize_eq, tokenize_eq, List.append_left_inj]
      refine ⟨?_, listing_false_eq⟩
      intro h
      have hdecoded := congrArg decodeTokens? h
      rw [decodeTokens?_listing, decodeTokens?_listing] at hdecoded
      exact Option.some.inj hdecoded
    · constructor
      · intro h
        have hdecoded := congrArg decodeLexemes? h
        rw [decodeLexemes?_listing, decodeLexemes?_listing] at hdecoded
        exact Option.some.inj hdecoded
      · intro h
        rw [listing, listing, entries, entries, listed_lexemes, listed_lexemes, h]

/-- A literal that no text has can look like the seam of two entries. -/
example :
    listing false [⟨⟨.ident, "a\x7d\n\x7bType:IDENT Literal:b"⟩, ⟨0, 1, 1⟩⟩] =
      listing false [⟨⟨.ident, "a"⟩, ⟨0, 1, 1⟩⟩, ⟨⟨.ident, "b"⟩, ⟨2, 3, 2⟩⟩] := by
  decide

end MonkeyTokens
