import MonkeyTokens.Prompt
import MonkeyTokens.Proofs.Within

/-!
# Lines

The prompt splits bytes into lines before it knows whether they are text.  When they are
the encoding of a text, its lines are those of the text: in UTF-8 the byte of a line feed
or of a carriage return is never part of another character.  So every line is text and is
answered, but for the empty one behind the last line feed.

Main results:

- Theorem `lines_induction`: induction over the lines of a text.
- Theorem `Utf8.toNat_eq_of_mem`: in UTF-8 a byte of ASCII is a character of its own.
- Theorem `Prompt.readings_lines_encode`: the lines of a text that are answered.
- Theorem `Prompt.transcript_empty_eq`: what is left of answering some lines.
-/

namespace MonkeyTokens

/-! ## Lines of a text -/

/-- The texts between the line feeds of a text. -/
def linesOf (text : String) : List String :=
  (text.toList.splitOn '\n').map String.ofList

/-- The offset at which a line of a text begins.  Lines are counted from zero. -/
def lineStart (text : String) (n : Nat) : Nat :=
  Utf8.width (((linesOf text).take n).flatMap fun line => line.toList ++ ['\n'])

variable {text line : String}

theorem linesOf_ne_nil (text : String) : linesOf text ≠ [] := by
  rw [linesOf, ne_eq, List.map_eq_nil_iff]
  exact List.splitOn_ne_nil _ _

theorem linesOf_of_not_mem (h : '\n' ∉ text.toList) : linesOf text = [text] := by
  rw [linesOf, List.splitOn_eq_singleton h, List.map_singleton, String.ofList_toList]

theorem linesOf_append (h : '\n' ∉ line.toList) (rest : String) :
    linesOf (line ++ "\n" ++ rest) = line :: linesOf rest := by
  have htext : (line ++ "\n" ++ rest).toList = line.toList ++ '\n' :: rest.toList := by
    simp
  rw [linesOf, htext, List.splitOn_append_cons_self_of_not_mem h, List.map_cons,
    String.ofList_toList, linesOf]

@[simp]
theorem lineStart_zero (text : String) : lineStart text 0 = 0 := by
  simp [lineStart]

theorem lineStart_succ (h : '\n' ∉ line.toList) (rest : String) (n : Nat) :
    lineStart (line ++ "\n" ++ rest) (n + 1) =
      Utf8.width line.toList + 1 + lineStart rest n := by
  rw [lineStart, linesOf_append h, List.take_succ_cons, List.flatMap_cons, Utf8.width_append,
    Utf8.width_append, lineStart]
  rfl

/-- Induction over the lines of a text. -/
theorem lines_induction {motive : String → Prop}
    (last : ∀ line : String, '\n' ∉ line.toList → motive line)
    (cons : ∀ line rest : String, '\n' ∉ line.toList → motive rest →
      motive (line ++ "\n" ++ rest))
    (text : String) : motive text := by
  by_cases hfeed : '\n' ∈ text.toList
  · rcases List.eq_append_cons_of_mem hfeed with ⟨line, rest, hsplit, hline⟩
    have htext : text = String.ofList line ++ "\n" ++ String.ofList rest := by
      rw [← String.toList_inj]
      simp [hsplit]
    have hshort : rest.length < text.toList.length := by
      rw [hsplit, List.length_append, List.length_cons]
      omega
    rw [htext]
    apply cons
    · rwa [String.toList_ofList]
    · exact lines_induction last cons (String.ofList rest)
  · exact last text hfeed
termination_by text.toList.length
decreasing_by
  rwa [String.toList_ofList]

/-! ## Bytes of characters -/

theorem Utf8.encode_eq_nil_iff : Utf8.encode text = [] ↔ text = "" := by
  rw [← List.length_eq_zero_iff, length_encode, width_eq_zero_iff, String.toList_eq_nil_iff]

/-- In UTF-8 a byte of ASCII is a character of its own. -/
theorem Utf8.toNat_eq_of_mem {c : Char} {b : UInt8} (hb : b ∈ String.utf8EncodeChar c)
    (hascii : b.toNat < 128) : c.toNat = b.toNat := by
  simp only [String.utf8EncodeChar] at hb
  split at hb
  · rw [List.mem_singleton.mp hb, UInt8.toNat_ofNat', Char.toNat]
    omega
  · -- The bytes of a wider character all have their highest bit set.
    exfalso
    revert hb
    split
    · simp only [List.mem_cons, List.not_mem_nil, or_false]
      rintro (rfl | rfl) <;> simp at hascii <;> omega
    · split
      · simp only [List.mem_cons, List.not_mem_nil, or_false]
        rintro (rfl | rfl | rfl) <;> simp at hascii <;> omega
      · simp only [List.mem_cons, List.not_mem_nil, or_false]
        rintro (rfl | rfl | rfl | rfl) <;> simp at hascii <;> omega

namespace Prompt

/-- The byte of a line feed is in the encoding of a text only if a line feed is in it. -/
theorem lineFeed_not_mem_encode (h : '\n' ∉ text.toList) : lineFeed ∉ Utf8.encode text := by
  intro hmem
  rcases List.mem_flatMap.mp hmem with ⟨c, hc, hb⟩
  have hfeed : c = '\n' := Char.toNat_inj.mp (Utf8.toNat_eq_of_mem hb (by decide))
  exact h (hfeed ▸ hc)

/-- The encoding of a text ends with the byte of a carriage return only if the text ends
with a carriage return. -/
theorem getLast?_eq_of_encode (h : (Utf8.encode text).getLast? = some carriageReturn) :
    text.toList.getLast? = some '\r' := by
  cases hlast : text.toList.getLast? with
  | none =>
    rw [List.getLast?_eq_none_iff] at hlast
    simp [Utf8.encode, hlast] at h
  | some c =>
    rcases List.getLast?_eq_some_iff.mp hlast with ⟨front, htext⟩
    have hne : String.utf8EncodeChar c ≠ [] := by
      simp
    have hb : carriageReturn ∈ String.utf8EncodeChar c := by
      rw [Utf8.encode, htext, List.flatMap_append, List.flatMap_singleton,
        List.getLast?_append] at h
      cases hbyte : (String.utf8EncodeChar c).getLast? with
      | none => exact absurd (List.getLast?_eq_none_iff.mp hbyte) hne
      | some b =>
        rw [hbyte] at h
        exact List.mem_of_getLast? (hbyte.trans h)
    have hreturn : c = '\r' := Char.toNat_inj.mp (Utf8.toNat_eq_of_mem hb (by decide))
    rw [hreturn]

/-! ## Lines of the input -/

variable {bytes : List UInt8}

/-- Bytes up to a line feed are a line. -/
theorem lines_append_lineFeed (h : lineFeed ∉ bytes) (rest : List UInt8) :
    lines (bytes ++ lineFeed :: rest) = (bytes ++ [lineFeed]) :: lines rest := by
  induction bytes with
  | nil => exact lines_lineFeed_cons rest
  | cons b bytes ih =>
    rw [List.mem_cons, not_or] at h
    exact lines_cons_of_ne (Ne.symm h.1) (ih h.2)

/-- Bytes without line feeds are a line, if there are any. -/
theorem lines_of_not_mem (h : lineFeed ∉ bytes) (hne : bytes ≠ []) : lines bytes = [bytes] := by
  induction bytes with
  | nil => exact absurd rfl hne
  | cons b bytes ih =>
    rw [List.mem_cons, not_or] at h
    cases bytes with
    | nil => rw [lines, if_neg (Ne.symm h.1), lines]
    | cons next bytes => exact lines_cons_of_ne (Ne.symm h.1) (ih h.2 (List.cons_ne_nil _ _))

theorem content_of_not_mem (h : lineFeed ∉ bytes) : content bytes = bytes := by
  unfold content
  split
  · rename_i last rest hreverse
    have hlast : last ∈ bytes := by
      rw [← List.mem_reverse, hreverse]
      exact List.mem_cons_self
    rw [if_neg]
    rintro rfl
    exact h hlast
  · rename_i hreverse
    exact (List.reverse_eq_nil_iff.mp hreverse).symm

theorem content_return (front : List UInt8) :
    content (front ++ [carriageReturn] ++ [lineFeed]) = front := by
  simp [content]

theorem content_lineFeed (h : bytes.getLast? ≠ some carriageReturn) :
    content (bytes ++ [lineFeed]) = bytes := by
  rcases List.eq_nil_or_concat bytes with rfl | ⟨front, b, rfl⟩
  · rfl
  · have hb : b ≠ carriageReturn := by
      simpa using h
    simp [content, hb]

/-! ## Lines that are answered -/

/-- A line without the carriage return that goes with its line feed. -/
def trimReturn (line : String) : String :=
  if line.toList.getLast? = some '\r' then String.ofList line.toList.dropLast else line

/-- Those of some lines that are answered, if a line feed ends all but the last of them:
nothing is behind the last line feed if the last line is empty. -/
def answeredOf : List String → List String
  | [] => []
  | [last] => if last = "" then [] else [last]
  | line :: rest => trimReturn line :: answeredOf rest

/-- The lines of a text that are answered. -/
def answered (text : String) : List String :=
  answeredOf (linesOf text)

theorem answered_last (h : '\n' ∉ line.toList) :
    answered line = if line = "" then [] else [line] := by
  rw [answered, linesOf_of_not_mem h, answeredOf]

theorem getD_answered_last (h : '\n' ∉ line.toList) (n : Nat) :
    (answered line).getD n "" = if n = 0 then line else "" := by
  rw [answered_last h]
  by_cases hempty : line = ""
  · simp [hempty]
  · cases n <;> simp [hempty]

theorem answered_cons (h : '\n' ∉ line.toList) (rest : String) :
    answered (line ++ "\n" ++ rest) = trimReturn line :: answered rest := by
  rw [answered, linesOf_append h]
  rcases List.exists_cons_of_ne_nil (linesOf_ne_nil rest) with ⟨next, later, hrest⟩
  rw [answered, hrest, answeredOf]
  exact List.cons_ne_nil next later

/-- A line either ends with a carriage return or is not trimmed. -/
theorem trimReturn_cases (line : String) :
    line = trimReturn line ++ "\r" ∨
      line.toList.getLast? ≠ some '\r' ∧ trimReturn line = line := by
  by_cases hreturn : line.toList.getLast? = some '\r'
  · left
    rcases List.getLast?_eq_some_iff.mp hreturn with ⟨front, hline⟩
    rw [← String.toList_inj, trimReturn, if_pos hreturn, String.toList_append,
      String.toList_ofList, hline, List.dropLast_concat]
    rfl
  · exact .inr ⟨hreturn, if_neg hreturn⟩

/-- A line feed, and a carriage return before it, are cut from a line. -/
theorem reading_lineFeed (line : String) :
    reading (Utf8.encode line ++ [lineFeed]) = .ok (trimReturn line) := by
  rw [reading_eq_ok_iff, text?, Utf8.decode?_eq_some_iff]
  refine ⟨by simp, ?_⟩
  rcases trimReturn_cases line with hreturn | ⟨hlast, htrim⟩
  · have hbytes : Utf8.encode line = Utf8.encode (trimReturn line) ++ [carriageReturn] := by
      conv => lhs; rw [hreturn, Utf8.encode_append]
      rfl
    rw [hbytes, content_return]
  · rw [htrim]
    exact content_lineFeed fun h => hlast (getLast?_eq_of_encode h)

/-- A line that no line feed ends is not cut. -/
theorem reading_last (h : '\n' ∉ line.toList) (hne : line ≠ "") :
    reading (Utf8.encode line) = .ok line := by
  rw [reading_eq_ok_iff, text?, Utf8.decode?_eq_some_iff]
  exact ⟨fun hnil => hne (Utf8.encode_eq_nil_iff.mp hnil),
    content_of_not_mem (lineFeed_not_mem_encode h)⟩

/-- The lines of a text that are answered, up to the end of the input. -/
theorem readings_lines_encode (text : String) :
    readings (lines (Utf8.encode text)) = (answered text, .endOfInput) := by
  induction text using lines_induction with
  | last line hline =>
    rw [answered_last hline]
    by_cases hempty : line = ""
    · subst hempty
      rfl
    · have hne : Utf8.encode line ≠ [] := fun hnil => hempty (Utf8.encode_eq_nil_iff.mp hnil)
      rw [lines_of_not_mem (lineFeed_not_mem_encode hline) hne, if_neg hempty,
        readings_cons_of_ok (reading_last hline hempty)]
      rfl
  | cons line rest hline ih =>
    have hbytes : Utf8.encode (line ++ "\n" ++ rest) =
        Utf8.encode line ++ lineFeed :: Utf8.encode rest := by
      rw [Utf8.encode_append, Utf8.encode_append, List.append_assoc]
      rfl
    rw [hbytes, lines_append_lineFeed (lineFeed_not_mem_encode hline), answered_cons hline,
      readings_cons_of_ok (reading_lineFeed line), ih]

/-- Of these carriage returns, only the one before the first line feed is cut. -/
example : answered "a\r\r\n\n\rb\r" = ["a\r", "", "\rb\r"] := by
  decide

/-! ## Sessions -/

/-- What is left of answering some lines without inviting them. -/
theorem transcript_empty_eq (showSpans : Bool) (lines : List String) :
    transcript "" showSpans lines =
      { output := String.join (lines.map fun line => listing showSpans (lexemes line))
        diagnostics := lines.flatMap fun line => diagnose unnamedPath line (lexemes line) } := by
  induction lines with
  | nil => rfl
  | cons line lines ih =>
    rw [transcript, answers, Transcript.append_assoc, ← transcript, ih]
    ext1 <;> simp [Transcript.print, answer, Transcript.ofSource]

end Prompt

end MonkeyTokens
