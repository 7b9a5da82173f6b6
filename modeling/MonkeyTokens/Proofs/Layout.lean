import Mathlib.Data.List.Chain
import MonkeyTokens.Proofs.Reading

/-!
# Layouts

A layout is a list of tokens, each with the blanks that are written behind it.  Two
tokens that stand side by side can run together, and then the text of the layout reads
as something else.  It reads as the tokens that it was made of exactly when blanks
keep such tokens apart.

Main results:

- Theorem `Cursor.map_token_lexemes_eq_cons_iff`: a token is read back exactly when the
  character behind it does not extend it.
- Theorem `Written.head?_not_extends_iff`: what is written behind a token does not extend
  it exactly when the token is kept apart from the next.
- Theorem `Layout.tokenize_text_eq_iff`: the tokens of a layout are read back exactly
  when those that merge are separated.
-/

namespace MonkeyTokens

/-! ## Writing tokens out -/

/-- A token that has a literal of its kind, and the blanks that are written behind it. -/
structure Written where
  token : Token
  blanks : String
  fits : token.kind.Fits token.literal.toList
  isGap : IsGap blanks.toList

/-- The text of written tokens. -/
def Written.text : List Written → String
  | [] => ""
  | w :: later => w.token.literal ++ (w.blanks ++ text later)

/-- Two written tokens, one after the other, do not merge or have blanks in between. -/
def Written.Apart (w next : Written) : Prop :=
  w.blanks = "" → ¬ w.token.kind.Merges next.token.kind

/-- Written tokens, and the blanks before the first of them. -/
structure Layout where
  lead : String
  written : List Written
  isGap_lead : IsGap lead.toList

namespace Layout

/-- The text of a layout. -/
def text (l : Layout) : String :=
  l.lead ++ Written.text l.written

/-- The tokens of a layout. -/
def tokens (l : Layout) : List Token :=
  l.written.map Written.token

/-- Every two neighbours in a layout are kept apart. -/
def Separated (l : Layout) : Prop :=
  l.written.IsChain Written.Apart

end Layout

/-! ## One token -/

/-- A fitting literal behind blanks is read back exactly when the character behind it
does not extend it; what comes later is then read on its own. -/
theorem Cursor.map_token_lexemes_eq_cons_iff {c : Cursor} {gap : List Char} {m : Munch}
    {later : List Token} (hrest : c.rest = gap ++ (m.text ++ m.rest)) (hgap : IsGap gap)
    (hfits : m.kind.Fits m.text) :
    c.lexemes.map Lexeme.token = ⟨m.kind, String.ofList m.text⟩ :: later ↔
      (∀ x ∈ m.rest.head?, ¬ m.kind.Extends x) ∧
        (c.behind gap m).lexemes.map Lexeme.token = later := by
  constructor
  · intro h
    have htoken : c.next.1.token = ⟨m.kind, String.ofList m.text⟩ := by
      rw [lexemes_eq, List.map_cons] at h
      exact (List.cons.inj h).1
    have hahead : c.Ahead gap m := ahead_of_token_eq hrest hgap hfits htoken
    rw [lexemes_of_ahead hahead, List.map_cons] at h
    exact ⟨hahead.maximal.2, (List.cons.inj h).2⟩
  · intro h
    rcases h with ⟨hstop, hlater⟩
    have hahead : c.Ahead gap m := ⟨hrest, hgap, hfits, hstop⟩
    rw [lexemes_of_ahead hahead, List.map_cons, hlater]
    rfl

namespace Written

/-- What is written behind a token does not extend it exactly when the token is kept
apart from the next. -/
theorem head?_not_extends_iff (w : Written) (later : List Written) :
    (∀ x ∈ (w.blanks.toList ++ (text later).toList).head?, ¬ w.token.kind.Extends x) ↔
      ∀ next ∈ later.head?, w.Apart next := by
  by_cases hblanks : w.blanks = ""
  · rw [hblanks, String.toList_empty, List.nil_append]
    cases later with
    | nil => simp [text]
    | cons next later =>
      rcases List.exists_cons_of_ne_nil next.fits.ne_nil with ⟨first, tail, hliteral⟩
      have hfits := next.fits
      rw [hliteral] at hfits
      have hhead : (text (next :: later)).toList.head? = some first := by
        simp [text, hliteral]
      rw [hhead]
      simp [Apart, hblanks, hfits.extends_iff_merges]
  · -- The blanks come first, and a blank extends nothing.
    have hne : w.blanks.toList ≠ [] := by
      rw [ne_eq, String.toList_eq_nil_iff]
      exact hblanks
    rcases List.exists_cons_of_ne_nil hne with ⟨first, tail, htoList⟩
    have hfirst : first ∈ blankChars := by
      apply w.isGap
      rw [htoList]
      exact List.mem_cons_self
    constructor
    · intro _ next _ hempty
      exact absurd hempty hblanks
    · intro _ x hx
      rw [htoList, List.cons_append] at hx
      have heq : first = x := Option.some.inj hx
      subst heq
      exact Kind.not_extends_of_mem_blankChars hfirst

/-! ## All tokens -/

/-- From a cursor before written tokens, they are read back exactly when all of them are
kept apart. -/
theorem map_token_lexemes_iff (written : List Written) {c : Cursor} {gap : List Char}
    (hrest : c.rest = gap ++ (text written).toList) (hgap : IsGap gap) :
    c.lexemes.map Lexeme.token = written.map token ++ [.endOfText] ↔ written.IsChain Apart := by
  induction written generalizing c gap with
  | nil =>
    have hblank : IsGap c.rest := by
      rw [hrest]
      exact List.forall_mem_append.mpr ⟨hgap, isGap_nil⟩
    rw [Cursor.lexemes_of_isGap hblank]
    exact iff_of_true rfl List.isChain_nil
  | cons w later ih =>
    -- The token, and behind it the blanks that the later tokens stand behind in turn.
    let m : Munch :=
      ⟨w.token.kind, w.token.literal.toList, w.blanks.toList ++ (text later).toList⟩
    have hsplit : c.rest = gap ++ (m.text ++ m.rest) := by
      rw [hrest, text, String.toList_append, String.toList_append]
    have hliteral : (⟨m.kind, String.ofList m.text⟩ : Token) = w.token := by
      simp only [m, String.ofList_toList]
    have hlater : (c.behind gap m).lexemes.map Lexeme.token = later.map token ++ [.endOfText] ↔
        later.IsChain Apart :=
      ih rfl w.isGap
    rw [List.map_cons, List.cons_append, ← hliteral,
      Cursor.map_token_lexemes_eq_cons_iff hsplit hgap w.fits, hlater, List.isChain_cons,
      ← head?_not_extends_iff]

end Written

namespace Layout

/-- The tokens of a layout are read back from its text exactly when those that merge are
separated. -/
theorem tokenize_text_eq_iff (l : Layout) :
    tokenize l.text = l.tokens ++ [.endOfText] ↔ l.Separated := by
  have hrest : (Cursor.atStart l.text).rest = l.lead.toList ++ (Written.text l.written).toList := by
    rw [Cursor.atStart, text, String.toList_append]
  exact Written.map_token_lexemes_iff l.written hrest l.isGap_lead

/-- The sign of an assignment and the one of a comparison, with some blanks in between. -/
def signs (blanks : String) (hgap : IsGap blanks.toList) : Layout where
  lead := ""
  written :=
    [⟨⟨.symbol .assign, "="⟩, blanks, rfl, hgap⟩, ⟨⟨.symbol .equal, "=="⟩, "", rfl, isGap_nil⟩]
  isGap_lead := isGap_nil

/-- Right before a comparison, the sign of an assignment is not read back.  A line feed keeps
the two apart. -/
theorem tokenize_signs :
    tokenize "===" ≠ [⟨.symbol .assign, "="⟩, ⟨.symbol .equal, "=="⟩, .endOfText] ∧
      tokenize "=\n==" = [⟨.symbol .assign, "="⟩, ⟨.symbol .equal, "=="⟩, .endOfText] := by
  have hgap : IsGap "\n".toList := by
    decide
  have htouch : ¬ (signs "" isGap_nil).Separated := by
    intro h
    have hapart := (List.isChain_cons_cons.mp h).1 rfl
    exact hapart (.inr (.inr ⟨.inl rfl, .inr rfl⟩))
  have hline : (signs "\n" hgap).Separated := by
    refine List.isChain_cons_cons.mpr ⟨?_, List.isChain_singleton _⟩
    intro hempty
    have hempty : "\n" = "" := hempty
    exact absurd hempty (by decide)
  exact ⟨mt (signs "" isGap_nil).tokenize_text_eq_iff.mp htouch,
    (signs "\n" hgap).tokenize_text_eq_iff.mpr hline⟩

end Layout

end MonkeyTokens
