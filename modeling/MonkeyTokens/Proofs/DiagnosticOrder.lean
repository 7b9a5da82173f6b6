import MonkeyTokens.Proofs.Pinpoint

/-!
# The order of diagnostics

The diagnostics of a text come in the order of the characters that they are about.  Those
that show a location show later and later ones, although a location need not be that of
the character.  Byte offsets grow faster than the text has characters, so from some
diagnostic on the ranges lie beyond the text and no location is shown; in ASCII that never
happens.

Main results:

- Theorem `Location.lt_of_ofRange?_eq_some`: of two ranges one after the other, the first
  has an earlier location if the second has one.
- Theorem `exists_shown_append_replicate`: locations in order, and none behind one that is
  missing.
- Theorem `diagnostics_inOrder`: the diagnostics of every text are in order.
-/

namespace MonkeyTokens

/-! ## Two ranges -/

namespace Location

variable {text : List Char} {start stop start' stop' : Nat} {l m : Location}

/-- A range has a location if neither its start nor its last element is beyond the text. -/
theorem ofRange?_eq_some_iff :
    ofRange? text start stop = some l ↔
      start ≤ text.length ∧ (start < stop → stop - 1 ≤ text.length) ∧ of text start = l := by
  unfold ofRange?
  split
  · simp only [reduceCtorEq, false_iff]
    omega
  · rw [Option.some_inj]
    constructor
    · intro h
      exact ⟨by omega, by omega, h⟩
    · intro h
      exact h.2.2

/-- Of two ranges one after the other, the first has an earlier location if the second has
one. -/
theorem lt_of_ofRange?_eq_some (hrange : start < stop) (hle : stop ≤ start')
    (h : ofRange? text start' stop' = some m) : ∃ l, ofRange? text start stop = some l ∧ l < m := by
  rcases ofRange?_eq_some_iff.mp h with ⟨hstart', -, rfl⟩
  refine ⟨of text start, ofRange?_eq_some_iff.mpr ⟨by omega, by omega, rfl⟩, ?_⟩
  exact of_lt_of (by omega) hstart'

end Location

/-! ## Lists of locations -/

/-- Locations in order, and none behind one that is missing. -/
theorem exists_shown_append_replicate {places : List (Option Location)}
    (h : places.Pairwise fun x y => ∀ m, y = some m → ∃ l, x = some l ∧ l < m) :
    ∃ (shown : List Location) (unshown : Nat),
      places = shown.map some ++ List.replicate unshown none ∧
        shown.Pairwise fun l m => l < m := by
  induction places with
  | nil => exact ⟨[], 0, rfl, List.Pairwise.nil⟩
  | cons place places ih =>
    rcases List.pairwise_cons.mp h with ⟨hplace, hplaces⟩
    cases place with
    | none =>
      have hnone : ∀ y ∈ places, y = none := by
        intro y hy
        cases y with
        | none => rfl
        | some m =>
          rcases hplace _ hy m rfl with ⟨l, hl, -⟩
          cases hl
      refine ⟨[], places.length + 1, ?_, List.Pairwise.nil⟩
      rw [List.replicate_succ, ← List.eq_replicate_of_mem hnone]
      rfl
    | some l =>
      rcases ih hplaces with ⟨shown, unshown, rfl, hshown⟩
      refine ⟨l :: shown, unshown, rfl, List.pairwise_cons.mpr ⟨?_, hshown⟩⟩
      intro m hm
      have hmem : some m ∈ shown.map some ++ List.replicate unshown none :=
        List.mem_append_left _ (List.mem_map_of_mem hm)
      rcases hplace _ hmem m rfl with ⟨l', hl', hlt⟩
      cases hl'
      exact hlt

/-! ## The diagnostics of a text -/

/-- The diagnostics for a text that show a location come first, each at a later location
than the one before; all do if the text is ASCII. -/
structure InOrder (source : String) (diagnostics : List Diagnostic) : Prop where
  shown_first :
    ∃ (shown : List Location) (unshown : Nat),
      diagnostics.map Diagnostic.location? = shown.map some ++ List.replicate unshown none ∧
        shown.Pairwise fun l m => l < m
  all_shown :
    (∀ c ∈ source.toList, IsAscii c) → ∀ d ∈ diagnostics, d.location?.isSome = true

variable {source : String} {l : Lexeme}

theorem inOrder_nil (source : String) : InOrder source [] :=
  ⟨⟨[], 0, rfl, List.Pairwise.nil⟩, by simp⟩

/-- An illegal lexeme takes at least one byte of its text. -/
theorem range_of_isIllegal (hl : l ∈ lexemes source) (h : l.isIllegal = true) :
    l.span.start < l.span.stop ∧ l.span.stop ≤ Utf8.width source.toList := by
  rcases exists_standsAt_of_isIllegal hl h with ⟨before, c, after, hstands⟩
  have hpos := c.utf8Size_pos
  rw [hstands.start_eq, hstands.stop_eq, hstands.source_eq, Utf8.width_append, Utf8.width_cons]
  omega

/-- The lexemes of a text stand one after the other. -/
theorem pairwise_lexemes (source : String) :
    (lexemes source).Pairwise fun l m => l.span.stop ≤ m.span.start :=
  (isTokenization_lexemes source).ordered

/-- Behind a diagnostic without a location there is none with one, and the locations grow. -/
theorem pairwise_location?_diagnose (path source : String) :
    ((diagnose path source (lexemes source)).map Diagnostic.location?).Pairwise
      fun x y => ∀ m, y = some m → ∃ l, x = some l ∧ l < m := by
  rw [diagnose, List.map_map, List.pairwise_map]
  refine ((pairwise_lexemes source).filter Lexeme.isIllegal).imp_of_mem ?_
  intro l l' hl _ hle m hm
  rcases List.mem_filter.mp hl with ⟨hmem, hillegal⟩
  exact Location.lt_of_ofRange?_eq_some (range_of_isIllegal hmem hillegal).1 hle hm

/-- In ASCII the range of every illegal lexeme is within the text. -/
theorem isSome_location?_of_ascii (hascii : ∀ c ∈ source.toList, IsAscii c) (path : String)
    (hl : l ∈ lexemes source) (h : l.isIllegal = true) :
    (l.diagnostic path source.toList).location?.isSome = true := by
  have hrange := range_of_isIllegal hl h
  rw [Utf8.width_eq_length_iff.mpr hascii] at hrange
  rw [l.location?_diagnostic path (by omega) (by omega)]
  rfl

theorem inOrder_diagnose (path source : String) :
    InOrder source (diagnose path source (lexemes source)) := by
  refine ⟨exists_shown_append_replicate (pairwise_location?_diagnose path source), ?_⟩
  intro hascii d hd
  rcases List.mem_map.mp hd with ⟨l, hl, rfl⟩
  rcases List.mem_filter.mp hl with ⟨hmem, hillegal⟩
  exact isSome_location?_of_ascii hascii path hmem hillegal

/-- Whether or not the sink takes the listing, the diagnostics are those of the text or
none. -/
theorem Script.diagnostics_run (sink : Sink) (path source : String) (showSpans : Bool) :
    (run sink path source showSpans).diagnostics = diagnose path source (lexemes source) ∨
      (run sink path source showSpans).diagnostics = [] := by
  dsimp only [run]
  split
  · exact .inr rfl
  · left
    rw [Outlet.put_unbounded Outlet.room?_unbounded]
    exact Outlet.toList_taken_holding _ _

/-- The diagnostics of every text are in order, and there is one for each illegal lexeme. -/
theorem diagnostics_inOrder (source : String) :
    (∀ path showSpans,
      (Script.run (.ofRoom? none) path source showSpans).diagnostics =
        ((lexemes source).filter Lexeme.isIllegal).map
          (Lexeme.diagnostic path source.toList)) ∧
      (∀ sink path showSpans,
        InOrder source (Script.run sink path source showSpans).diagnostics) ∧
      InOrder source (diagnose unnamedPath source (lexemes source)) := by
  refine ⟨fun path => Script.diagnostics_run_unbounded path source, ?_,
    inOrder_diagnose unnamedPath source⟩
  intro sink path showSpans
  rcases Script.diagnostics_run sink path source showSpans with hall | hnone
  · rw [hall]
    exact inOrder_diagnose path source
  · rw [hnone]
    exact inOrder_nil source

end MonkeyTokens
