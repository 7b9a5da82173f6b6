import MonkeyTokens.Proofs.Reading
import MonkeyTokens.Scanner.Dialogue

/-!
# Scanners as replays

A replay steps through a list of lexemes that is fixed in advance.  It stays on the
last lexeme when asked for more, and as a sequence it ends once it has yielded the
end.  Whatever is asked of a scanner, and in whatever order, the answers are those of
the replay of its lexemes.

Main results:

- Theorem `Follows.lexeme`: a scanner and the replay that it follows answer alike
  when asked for a lexeme, and follow each other afterwards.
- Theorem `Follows.answers`: the same for every list of requests.
- Theorem `answers_eq_replay`: a new scanner answers every dialogue like the replay of
  the lexemes of its text.
-/

namespace MonkeyTokens

/-! ## Replays -/

/-- A list of lexemes, the index of the one to come, and whether the sequence of
lexemes has ended. -/
structure Replay where
  all : List Lexeme
  index : Nat
  finished : Bool
  index_lt : index < all.length

namespace Replay

/-- The lexeme to come.  The replay moves on unless it is the last. -/
def lexeme (r : Replay) : Lexeme × Replay :=
  (r.all.get ⟨r.index, r.index_lt⟩,
    { r with
      index := min (r.index + 1) (r.all.length - 1)
      index_lt := by
        have := r.index_lt
        omega })

/-- The token of the lexeme to come. -/
def token (r : Replay) : Token × Replay :=
  (r.lexeme.1.token, r.lexeme.2)

/-- The next element of the sequence of lexemes, which ends with the end of the text. -/
def next? (r : Replay) : Option Lexeme × Replay :=
  if r.finished then
    (none, r)
  else
    (some r.lexeme.1, { r.lexeme.2 with finished := r.lexeme.1.isEof })

/-- The answer to the last of `n + 1` calls of `next?`, or to the first that gives
none. -/
def nth : Nat → Replay → Option Lexeme × Replay
  | 0, r => r.next?
  | n + 1, r =>
    match r.next? with
    | (none, r) => (none, r)
    | (some _, r) => nth n r

/-- The answers to `n` calls of `next?`, up to the first that gives none. -/
def take : Nat → Replay → List Lexeme × Replay
  | 0, r => ([], r)
  | n + 1, r =>
    match r.next? with
    | (none, r) => ([], r)
    | (some l, r) => (l :: (take n r).1, (take n r).2)

/-- The lexemes from the one to come on, or none if the sequence has ended. -/
def drain (r : Replay) : List Lexeme :=
  if r.finished then [] else r.all.drop r.index

end Replay

namespace Dialogue

/-- The requests that read lexemes and leave the scanner in place. -/
inductive Pull where
  | token
  | lexeme
  | next
  | nth (n : Nat)
  | take (n : Nat)
  deriving DecidableEq, Repr

/-- A pull as it is put to a scanner. -/
def Pull.request : Pull → Request
  | token => .token
  | lexeme => .lexeme
  | next => .next
  | nth n => .nth n
  | take n => .take n

end Dialogue

open Dialogue

namespace Replay

/-- The answer of a replay to a pull, and the replay afterwards. -/
def pull (r : Replay) : Pull → Answer × Replay
  | .token => (.token r.token.1, r.token.2)
  | .lexeme => (.lexeme r.lexeme.1, r.lexeme.2)
  | .next => (.element r.next?.1, r.next?.2)
  | .nth n => (.element (r.nth n).1, (r.nth n).2)
  | .take n => (.elements (r.take n).1, (r.take n).2)

/-- The answers of a replay to a list of pulls. -/
def answers : Replay → List Pull → List Answer
  | _, [] => []
  | r, p :: pulls => (r.pull p).1 :: answers (r.pull p).2 pulls

/-- The replay after a list of pulls. -/
def after : Replay → List Pull → Replay
  | r, [] => r
  | r, p :: pulls => after (r.pull p).2 pulls

/-- The replay of the lexemes that a new scanner yields, before the first of them. -/
def ofSource (source : String) : Replay where
  all := (Scanner.ofSource source).drain
  index := 0
  finished := false
  index_lt := List.length_pos_iff.mpr (reading_lexemes (.atStart source)).ne_nil

end Replay

/-! ## One request -/

/-- A scanner has the lexemes before it that a replay has still to give. -/
structure Follows (s : Scanner) (r : Replay) : Prop where
  lexemes_eq : s.cursor.lexemes = r.all.drop r.index
  finished_eq : s.finished = r.finished

/-- The end is read again and again, and the cursor stays where it is. -/
theorem Cursor.next_behind_eof {c : Cursor} (h : c.next.1.isEof = true) :
    c.next.2.next = c.next := by
  have hfinish : IsGap c.finish.rest := isGap_nil
  rw [next_of_isGap (isEof_next_iff.mp h), next_of_isGap hfinish]
  simp [finish]

/-- Once the end was read, it is all that is read. -/
theorem Cursor.lexemes_behind_eof {c : Cursor} (h : c.next.1.isEof = true) :
    c.next.2.lexemes = [c.next.1] := by
  rw [lexemes_eq, next_behind_eof h, if_pos h]

namespace Follows

variable {s : Scanner} {r : Replay}

/-- Asked for a lexeme, both give the same and still agree on what comes after. -/
theorem lexeme (h : Follows s r) :
    s.nextLexeme.1 = r.lexeme.1 ∧ Follows s.nextLexeme.2 r.lexeme.2 := by
  have hlexemes := h.lexemes_eq
  rw [s.cursor.lexemes_eq, List.drop_eq_getElem_cons r.index_lt] at hlexemes
  rcases List.cons.inj hlexemes with ⟨hhead, htail⟩
  refine ⟨hhead, ?_, h.finished_eq⟩
  change s.cursor.next.2.lexemes = r.all.drop (min (r.index + 1) (r.all.length - 1))
  have hlt := r.index_lt
  by_cases heof : s.cursor.next.1.isEof = true
  · -- The end is the last lexeme: the replay stays where it is.
    rw [if_pos heof] at htail
    have hlast : r.all.length ≤ r.index + 1 := List.drop_eq_nil_iff.mp htail.symm
    have hstay : min (r.index + 1) (r.all.length - 1) = r.index := by omega
    rw [hstay, List.drop_eq_getElem_cons hlt, ← htail, ← hhead]
    exact Cursor.lexemes_behind_eof heof
  · rw [if_neg heof] at htail
    have hmore : r.index + 1 < r.all.length := by
      have hne := (reading_lexemes s.cursor.next.2).ne_nil
      rw [htail, ne_eq, List.drop_eq_nil_iff] at hne
      omega
    have hmove : min (r.index + 1) (r.all.length - 1) = r.index + 1 := by omega
    rw [hmove, htail]

theorem next? (h : Follows s r) : s.next?.1 = r.next?.1 ∧ Follows s.next?.2 r.next?.2 := by
  have hfinished := h.finished_eq
  unfold Scanner.next? Replay.next?
  rw [← hfinished]
  split
  · exact ⟨rfl, h⟩
  · rcases h.lexeme with ⟨hhead, htail⟩
    exact ⟨congrArg some hhead, htail.lexemes_eq, congrArg Lexeme.isEof hhead⟩

/-- The next elements, and the scanner and the replay behind them. -/
theorem exists_next?_eq (h : Follows s r) :
    ∃ element s' r', s.next? = (element, s') ∧ r.next? = (element, r') ∧ Follows s' r' := by
  rcases h.next? with ⟨helement, hfollows⟩
  refine ⟨s.next?.1, s.next?.2, r.next?.2, rfl, ?_, hfollows⟩
  rw [helement]

theorem nth (n : Nat) (h : Follows s r) :
    (s.nth n).1 = (r.nth n).1 ∧ Follows (s.nth n).2 (r.nth n).2 := by
  induction n generalizing s r with
  | zero => exact h.next?
  | succ n ih =>
    rcases h.exists_next?_eq with ⟨element, s', r', hs, hr, hfollows⟩
    simp only [Scanner.nth, Replay.nth, hs, hr]
    cases element with
    | none => exact ⟨rfl, hfollows⟩
    | some l => exact ih hfollows

theorem take (n : Nat) (h : Follows s r) :
    (s.take n).1 = (r.take n).1 ∧ Follows (s.take n).2 (r.take n).2 := by
  induction n generalizing s r with
  | zero => exact ⟨rfl, h⟩
  | succ n ih =>
    rcases h.exists_next?_eq with ⟨element, s', r', hs, hr, hfollows⟩
    simp only [Scanner.take, Replay.take, hs, hr]
    cases element with
    | none => exact ⟨rfl, hfollows⟩
    | some l =>
      rcases ih hfollows with ⟨hlater, hfollows'⟩
      exact ⟨congrArg (List.cons l) hlater, hfollows'⟩

/-- Both yield the same lexemes when they are drained. -/
theorem drain (h : Follows s r) : s.drain = r.drain := by
  rw [Scanner.drain, Replay.drain, h.finished_eq, h.lexemes_eq]

/-- Every pull is answered alike, and the scanner is not used up by it. -/
theorem pull (p : Pull) (h : Follows s r) :
    ∃ s', answer s p.request = ((r.pull p).1, some s') ∧ Follows s' (r.pull p).2 := by
  cases p with
  | token =>
    rcases h.lexeme with ⟨hanswer, hfollows⟩
    exact ⟨s.nextLexeme.2, by simp [answer, Pull.request, Scanner.nextToken, Replay.pull,
      Replay.token, hanswer], hfollows⟩
  | lexeme =>
    rcases h.lexeme with ⟨hanswer, hfollows⟩
    exact ⟨s.nextLexeme.2, by simp [answer, Pull.request, Replay.pull, hanswer], hfollows⟩
  | next =>
    rcases h.next? with ⟨hanswer, hfollows⟩
    exact ⟨s.next?.2, by simp [answer, Pull.request, Replay.pull, hanswer], hfollows⟩
  | nth n =>
    rcases h.nth n with ⟨hanswer, hfollows⟩
    exact ⟨(s.nth n).2, by simp [answer, Pull.request, Replay.pull, hanswer], hfollows⟩
  | take n =>
    rcases h.take n with ⟨hanswer, hfollows⟩
    exact ⟨(s.take n).2, by simp [answer, Pull.request, Replay.pull, hanswer], hfollows⟩

/-! ## Whole dialogues -/

/-- A list of pulls is answered alike, and the scanner is still there afterwards. -/
theorem answers (pulls : List Pull) (h : Follows s r) :
    Dialogue.answers (some s) (pulls.map Pull.request) = r.answers pulls ∧
      ∃ s', Dialogue.after (some s) (pulls.map Pull.request) = some s' ∧
        Follows s' (r.after pulls) := by
  induction pulls generalizing s r with
  | nil => exact ⟨rfl, s, rfl, h⟩
  | cons p pulls ih =>
    rcases h.pull p with ⟨s', hanswer, hfollows⟩
    rcases ih hfollows with ⟨hanswers, s'', hafter, hfollows'⟩
    have hstep : answer? (some s) p.request = ((r.pull p).1, some s') := hanswer
    refine ⟨?_, s'', ?_, hfollows'⟩
    · rw [List.map_cons, Dialogue.answers, hstep, hanswers]
      rfl
    · rw [List.map_cons, Dialogue.after, List.foldl_cons, hstep]
      exact hafter

end Follows

/-- A new scanner follows the replay of the lexemes that it yields. -/
theorem follows_ofSource (source : String) :
    Follows (.ofSource source) (.ofSource source) :=
  ⟨rfl, rfl⟩

/-- An end that was asked for directly is still yielded by the sequence, once. -/
theorem Scanner.next?_of_isEof {s : Scanner} (hfinished : s.finished = false)
    (heof : s.nextLexeme.1.isEof = true) :
    s.nextLexeme.2.next?.1 = some s.nextLexeme.1 ∧
      s.nextLexeme.2.next?.2.next? = (none, s.nextLexeme.2.next?.2) := by
  have hagain : s.nextLexeme.2.cursor.next = s.cursor.next := Cursor.next_behind_eof heof
  have hnext : s.nextLexeme.2.next? =
      (some s.nextLexeme.1, { s.nextLexeme.2 with finished := true }) := by
    rw [next?, if_neg (by simp [nextLexeme, hfinished])]
    simp only [nextLexeme] at hagain heof ⊢
    rw [hagain, heof]
  rw [hnext]
  exact ⟨rfl, rfl⟩

/-- A new scanner answers every dialogue like the replay of the lexemes of its text. -/
theorem answers_eq_replay (source : String) :
    (∀ pulls : List Pull,
      answers (some (.ofSource source)) (pulls.map Pull.request) =
          (Replay.ofSource source).answers pulls ∧
        answers (some (.ofSource source)) (pulls.map Pull.request ++ [.drain]) =
          (Replay.ofSource source).answers pulls ++
            [.elements ((Replay.ofSource source).after pulls).drain]) ∧
      (∀ s : Scanner, s.finished = false → s.nextLexeme.1.isEof = true →
        ∀ s' ∈ [s.nextLexeme.2, s.nextToken.2],
          s'.next?.1 = some s.nextLexeme.1 ∧ s'.next?.2.next? = (none, s'.next?.2)) ∧
      tokenize source = (Scanner.ofSource source).drain.map Lexeme.token := by
  refine ⟨?_, ?_, rfl⟩
  · intro pulls
    rcases (follows_ofSource source).answers pulls with ⟨hanswers, s', hafter, hfollows⟩
    refine ⟨hanswers, ?_⟩
    rw [answers_append, hanswers, hafter]
    exact congrArg (fun drained => _ ++ [Answer.elements drained]) hfollows.drain
  · intro s hfinished heof s' hs'
    have heq : s' = s.nextLexeme.2 := by simpa [Scanner.nextToken] using hs'
    rw [heq]
    exact Scanner.next?_of_isEof hfinished heof

/-- The end of a blank text, asked for directly, is yielded once more by the sequence. -/
theorem next?_behind_blank :
    (Scanner.ofSource " \n").finished = false ∧
      (Scanner.ofSource " \n").nextLexeme.1.isEof = true ∧
      (Scanner.ofSource " \n").nextToken.2.next?.1 =
        some (Scanner.ofSource " \n").nextLexeme.1 := by
  have hfinished : (Scanner.ofSource " \n").finished = false := rfl
  have heof : (Scanner.ofSource " \n").nextLexeme.1.isEof = true := by decide
  have hagain := (answers_eq_replay " \n").2.1 (.ofSource " \n") hfinished heof
  exact ⟨hfinished, heof, (hagain _ (List.mem_cons_of_mem _ List.mem_cons_self)).1⟩

end MonkeyTokens
