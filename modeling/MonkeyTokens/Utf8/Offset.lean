import MonkeyTokens.Utf8

/-!
# Byte offsets

What a text holds at a byte offset, between two offsets, and on which line an offset
lies.  An offset that falls inside a character, or beyond the text, has no answer.

Main results:

- Theorem `splitAt?_eq_some_iff`: an offset splits a text into the characters that take
  so many bytes and the others.
- Theorem `slice?_eq_some_iff`: a slice is found exactly where it stands.
-/

namespace MonkeyTokens.Utf8

/-- The parts of a text before and behind so many bytes.  There are none if no
character ends there. -/
def splitAt? : Nat → List Char → Option (List Char × List Char)
  | 0, text => some ([], text)
  | _ + 1, [] => none
  | n + 1, c :: text =>
    if c.utf8Size ≤ n + 1 then
      (splitAt? (n + 1 - c.utf8Size) text).map fun parts => (c :: parts.1, parts.2)
    else
      none

/-- What a text holds from one offset up to another. -/
def slice? (source : String) (start stop : Nat) : Option String :=
  (splitAt? stop source.toList).bind fun outer =>
    (splitAt? start outer.1).map fun inner => String.ofList inner.2

/-- The character that begins at an offset. -/
def charAt? (source : String) (offset : Nat) : Option Char :=
  (splitAt? offset source.toList).bind fun parts => parts.2.head?

/-- The number of the line on which an offset lies: one more than the line feeds
before it. -/
def lineAt? (source : String) (offset : Nat) : Option Nat :=
  (splitAt? offset source.toList).map fun parts => 1 + parts.1.count '\n'

/-- A text takes at least one byte for each character. -/
theorem length_le_width (text : List Char) : text.length ≤ width text := by
  induction text with
  | nil => exact Nat.le_refl 0
  | cons c text ih =>
    have hpos := c.utf8Size_pos
    rw [List.length_cons, width_cons]
    omega

/-- Only the empty text takes no bytes. -/
theorem width_eq_zero_iff {text : List Char} : width text = 0 ↔ text = [] := by
  cases text with
  | nil => simp
  | cons c text =>
    have hpos := c.utf8Size_pos
    simp only [width_cons, reduceCtorEq, iff_false]
    omega

/-- A text takes more bytes than what comes before one of its characters. -/
theorem width_lt_of_prefix {before text : List Char} {c : Char} (h : before ++ [c] <+: text) :
    width before < width text := by
  rcases h with ⟨after, rfl⟩
  have hpos := c.utf8Size_pos
  rw [width_append, width_append, width_cons]
  omega

/-- Passing a number of characters is undone by splitting off their bytes. -/
theorem splitAt?_width (before after : List Char) :
    splitAt? (width before) (before ++ after) = some (before, after) := by
  induction before with
  | nil =>
    rw [List.nil_append, width_nil, splitAt?]
  | cons c before ih =>
    cases hn : width (c :: before) with
    | zero => exact absurd (width_eq_zero_iff.mp hn) (List.cons_ne_nil c before)
    | succ n =>
      rw [width_cons] at hn
      have hle : c.utf8Size ≤ n + 1 := by omega
      have hrest : n + 1 - c.utf8Size = width before := by omega
      rw [List.cons_append, splitAt?, if_pos hle, hrest, ih]
      rfl

/-- An offset splits a text into the characters that take so many bytes and the others. -/
theorem splitAt?_eq_some_iff {n : Nat} {text before after : List Char} :
    splitAt? n text = some (before, after) ↔ text = before ++ after ∧ width before = n := by
  constructor
  · intro h
    fun_induction splitAt? n text generalizing before with
    | case1 text =>
      cases h
      exact ⟨rfl, rfl⟩
    | case2 n => cases h
    | case3 n c text hle ih =>
      rcases Option.map_eq_some_iff.mp h with ⟨⟨before', after'⟩, hsplit, hpair⟩
      cases hpair
      rcases ih hsplit with ⟨rfl, hwidth⟩
      refine ⟨rfl, ?_⟩
      rw [width_cons, hwidth]
      omega
    | case4 n c text hgt => cases h
  · intro h
    rcases h with ⟨rfl, rfl⟩
    exact splitAt?_width before after

/-- A character stands within the text. -/
theorem add_utf8Size_le_of_charAt? {source : String} {offset : Nat} {c : Char}
    (h : charAt? source offset = some c) :
    offset + c.utf8Size ≤ width source.toList := by
  rcases Option.bind_eq_some_iff.mp h with ⟨⟨before, after⟩, hsplit, hhead⟩
  rcases splitAt?_eq_some_iff.mp hsplit with ⟨hsource, rfl⟩
  rcases List.head?_eq_some_iff.mp hhead with ⟨rest, rfl⟩
  rw [hsource, width_append, width_cons]
  omega

/-- The two parts of a split put together are the text. -/
theorem eq_append_of_splitAt? {source : String} {n : Nat} {before after : List Char}
    (h : splitAt? n source.toList = some (before, after)) :
    source = String.ofList before ++ String.ofList after := by
  have hsource := (splitAt?_eq_some_iff.mp h).1
  rw [← String.toList_inj, String.toList_append, String.toList_ofList, String.toList_ofList]
  exact hsource

/-- A text has one split at an offset. -/
theorem append_inj_of_width_eq {a b c d : List Char} (h : a ++ b = c ++ d)
    (hwidth : width a = width c) : a = c ∧ b = d := by
  have hsplit := splitAt?_width a b
  rw [h, hwidth, splitAt?_width] at hsplit
  cases hsplit
  exact ⟨rfl, rfl⟩

/-- A slice is found exactly where it stands. -/
theorem slice?_eq_some_iff {source text : String} {start stop : Nat} :
    slice? source start stop = some text ↔
      ∃ before after, source.toList = before ++ text.toList ++ after ∧
        width before = start ∧ start + width text.toList = stop := by
  constructor
  · intro h
    rcases Option.bind_eq_some_iff.mp h with ⟨⟨upTo, after⟩, hstop, h⟩
    rcases Option.map_eq_some_iff.mp h with ⟨⟨before, mid⟩, hstart, htext⟩
    rcases splitAt?_eq_some_iff.mp hstop with ⟨hsource, hupTo⟩
    rcases splitAt?_eq_some_iff.mp hstart with ⟨rfl, hbefore⟩
    subst htext
    rw [width_append, hbefore] at hupTo
    rw [String.toList_ofList]
    exact ⟨before, after, hsource, hbefore, hupTo⟩
  · intro h
    rcases h with ⟨before, after, hsource, rfl, rfl⟩
    rw [slice?, hsource, ← width_append, splitAt?_width, Option.bind_some, splitAt?_width]
    simp

end MonkeyTokens.Utf8
