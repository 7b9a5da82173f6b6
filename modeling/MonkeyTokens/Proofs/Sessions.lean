import MonkeyTokens.FileTree
import MonkeyTokens.Program
import MonkeyTokens.Proofs.Lines

/-!
# Sessions at the prompt

Nothing passes from one line of a session to the next.  A session is what its lines give
when each is scanned by itself, up to the first line that is not text, and the invitation
before every attempt to read.  So a session on some lines and then on others is the one
session followed by the other, unless a line among the first is not text: then the others
are never reached.

Main results:

- Theorem `Prompt.isSome_text?_append_lineFeed`: the line feed and the carriage return that
  are cut from a line make no difference to whether it is text.
- Theorems `Prompt.readings_lines_append` and `Prompt.exists_readings_lines_append`: lines
  that are text leave what follows them to be read as if it came first, and others leave
  nothing to be read.
- Theorem `sessions_compose`: how the program treats two inputs put together.
-/

namespace MonkeyTokens

namespace Prompt

/-! ## What is read -/

/-- Texts that a line feed ends are read, but for the carriage returns that are cut. -/
theorem readings_texts_append (texts : List String) (rest : List (List UInt8)) :
    readings ((texts.map fun text => Utf8.encode text ++ [lineFeed]) ++ rest) =
      (texts.map trimReturn ++ (readings rest).1, (readings rest).2) := by
  induction texts with
  | nil => rfl
  | cons text texts ih =>
    rw [List.map_cons, List.cons_append, readings_cons_of_ok (reading_lineFeed text), ih]
    rfl

/-! ## Lines that are text -/

/-- Bytes that end with a line feed, if there are any, are made of the lines that their line
feeds end. -/
theorem exists_splitOn_eq {bytes : List UInt8}
    (h : bytes = [] ∨ bytes.getLast? = some lineFeed) :
    ∃ pieces, bytes.splitOn lineFeed = pieces ++ [[]] ∧
      lines bytes = pieces.map fun piece => piece ++ [lineFeed] := by
  by_cases hfeed : lineFeed ∈ bytes
  · rcases List.eq_append_cons_of_mem hfeed with ⟨front, rest, rfl, hfront⟩
    have hrest : rest = [] ∨ rest.getLast? = some lineFeed := by
      cases rest with
      | nil => exact .inl rfl
      | cons b rest => exact .inr (by simpa using h)
    rcases exists_splitOn_eq hrest with ⟨pieces, hsplit, hlines⟩
    refine ⟨front :: pieces, ?_, ?_⟩
    · rw [List.splitOn_append_cons_self_of_not_mem hfront, hsplit, List.cons_append]
    · rw [lines_append_lineFeed hfront, hlines, List.map_cons]
  · have hnil : bytes = [] := by
      rcases h with h | h
      · exact h
      · exact absurd (List.mem_of_getLast? h) hfeed
    subst hnil
    exact ⟨[], rfl, rfl⟩
termination_by bytes.length
decreasing_by
  subst_vars
  simp
  omega

/-- A carriage return behind some bytes makes no difference to whether they are text. -/
theorem isSome_decode?_append_return (bytes : List UInt8) :
    (Utf8.decode? (bytes ++ [carriageReturn])).isSome = (Utf8.decode? bytes).isSome := by
  have hreturn (text : String) : Utf8.encode (text ++ "\r") =
      Utf8.encode text ++ [carriageReturn] := by
    rw [Utf8.encode_append]
    rfl
  rw [Bool.eq_iff_iff, Option.isSome_iff_exists, Option.isSome_iff_exists]
  constructor
  · rintro ⟨text, htext⟩
    have hbytes := Utf8.decode?_eq_some_iff.mp htext
    have hlast : text.toList.getLast? = some '\r' := by
      apply getLast?_eq_of_encode
      rw [← hbytes, List.getLast?_concat]
    rcases trimReturn_cases text with hcut | ⟨hno, -⟩
    · rw [hcut, hreturn] at hbytes
      exact ⟨trimReturn text, Utf8.decode?_eq_some_iff.mpr (List.append_cancel_right hbytes)⟩
    · exact absurd hlast hno
  · rintro ⟨text, htext⟩
    rw [Utf8.decode?_eq_some_iff.mp htext, ← hreturn]
    exact ⟨text ++ "\r", Utf8.decode?_eq_some_iff.mpr rfl⟩

/-- A line is text if the bytes before its line feed are, whether or not a carriage return
is among them. -/
theorem isSome_text?_append_lineFeed (bytes : List UInt8) :
    (text? (bytes ++ [lineFeed])).isSome = (Utf8.decode? bytes).isSome := by
  by_cases hlast : bytes.getLast? = some carriageReturn
  · rcases List.getLast?_eq_some_iff.mp hlast with ⟨front, rfl⟩
    rw [text?, content_return, isSome_decode?_append_return]
  · rw [text?, content_lineFeed hlast]

/-- Some pieces of bytes are texts up to the first that is none. -/
theorem exists_texts (pieces : List (List UInt8)) :
    ∃ (texts : List String) (rest : List (List UInt8)),
      pieces = texts.map Utf8.encode ++ rest ∧
        ∀ bad ∈ rest.head?, (Utf8.decode? bad).isSome = false := by
  induction pieces with
  | nil => exact ⟨[], [], rfl, by simp⟩
  | cons piece pieces ih =>
    cases htext : Utf8.decode? piece with
    | none =>
      refine ⟨[], piece :: pieces, rfl, ?_⟩
      rintro bad ⟨⟩
      rw [htext]
      rfl
    | some text =>
      rcases ih with ⟨texts, rest, hpieces, hrest⟩
      refine ⟨text :: texts, rest, ?_, hrest⟩
      rw [hpieces, Utf8.decode?_eq_some_iff.mp htext]
      rfl

/-! ## Two inputs put together -/

variable {bytes : List UInt8}

/-- If all pieces between line feeds are text, the lines are those texts. -/
theorem exists_lines_eq_texts (hend : bytes = [] ∨ bytes.getLast? = some lineFeed)
    (h : ∀ piece ∈ bytes.splitOn lineFeed, (Utf8.decode? piece).isSome = true) :
    ∃ texts : List String,
      lines bytes = texts.map fun text => Utf8.encode text ++ [lineFeed] := by
  rcases exists_splitOn_eq hend with ⟨pieces, hsplit, hlines⟩
  rcases exists_texts pieces with ⟨texts, rest, hpieces, hrest⟩
  have hnil : rest = [] := by
    cases rest with
    | nil => rfl
    | cons bad later =>
      have hbad := hrest bad rfl
      rw [h bad (by simp [hsplit, hpieces])] at hbad
      cases hbad
  rw [hlines, hpieces, hnil, List.append_nil, List.map_map]
  exact ⟨texts, rfl⟩

/-- If some piece between line feeds is not text, the lines are texts up to the first such
piece. -/
theorem exists_lines_eq_texts_append (hend : bytes = [] ∨ bytes.getLast? = some lineFeed)
    (h : ∃ piece ∈ bytes.splitOn lineFeed, (Utf8.decode? piece).isSome = false) :
    ∃ (texts : List String) (bad : List UInt8) (later : List (List UInt8)),
      bytes.splitOn lineFeed = texts.map Utf8.encode ++ bad :: later ∧
        (Utf8.decode? bad).isSome = false ∧
        ∃ rest, lines bytes =
          (texts.map fun text => Utf8.encode text ++ [lineFeed]) ++
            (bad ++ [lineFeed]) :: rest := by
  rcases exists_splitOn_eq hend with ⟨pieces, hsplit, hlines⟩
  rcases exists_texts pieces with ⟨texts, rest, hpieces, hrest⟩
  cases rest with
  | nil =>
    -- Then all pieces are text, also the empty one behind the last line feed.
    rcases h with ⟨piece, hpiece, hnone⟩
    have htext : ∃ text, piece = Utf8.encode text := by
      rw [hsplit, hpieces, List.append_nil, List.mem_append, List.mem_singleton] at hpiece
      rcases hpiece with hpiece | rfl
      · rcases List.mem_map.mp hpiece with ⟨text, -, rfl⟩
        exact ⟨text, rfl⟩
      · exact ⟨"", rfl⟩
    rcases htext with ⟨text, rfl⟩
    rw [Utf8.decode?_eq_some_iff.mpr rfl] at hnone
    cases hnone
  | cons bad later =>
    refine ⟨texts, bad, later ++ [[]], ?_, hrest bad rfl, later.map (· ++ [lineFeed]), ?_⟩
    · rw [hsplit, hpieces, List.append_assoc, List.cons_append]
    · rw [hlines, hpieces, List.map_append, List.map_map, List.map_cons]
      rfl

/-- What stands behind a line feed begins a line of its own, also if nothing is before it. -/
theorem lines_append (hend : bytes = [] ∨ bytes.getLast? = some lineFeed) (rest : List UInt8) :
    lines (bytes ++ rest) = lines bytes ++ lines rest := by
  rcases hend with rfl | hend
  · rfl
  · exact lines_append_of_getLast? hend rest

/-- Behind lines that are text, an input is read as if it came first. -/
theorem readings_lines_append (hend : bytes = [] ∨ bytes.getLast? = some lineFeed)
    (h : ∀ piece ∈ bytes.splitOn lineFeed, (Utf8.decode? piece).isSome = true)
    (rest : List UInt8) :
    readings (lines (bytes ++ rest)) =
      ((readings (lines bytes)).1 ++ (readings (lines rest)).1, (readings (lines rest)).2) := by
  rcases exists_lines_eq_texts hend h with ⟨texts, hlines⟩
  have hbytes : readings (lines bytes) = (texts.map trimReturn, .endOfInput) := by
    simpa [hlines, readings] using readings_texts_append texts []
  rw [lines_append hend, hbytes, hlines, readings_texts_append]

/-- A line of text in front of an input is read before it. -/
theorem readings_line_append {text : String} (htext : '\n' ∉ text.toList) (rest : List UInt8) :
    readings (lines (Utf8.encode text ++ lineFeed :: rest)) =
      (trimReturn text :: (readings (lines rest)).1, (readings (lines rest)).2) := by
  rw [lines_append_lineFeed (lineFeed_not_mem_encode htext),
    readings_cons_of_ok (reading_lineFeed text)]

/-- If some piece between line feeds is not text, the texts before the first such piece are
read, whatever comes behind, and then reading fails. -/
theorem exists_readings_lines_append (hend : bytes = [] ∨ bytes.getLast? = some lineFeed)
    (h : ∃ piece ∈ bytes.splitOn lineFeed, (Utf8.decode? piece).isSome = false) :
    ∃ (texts : List String) (bad : List UInt8) (later : List (List UInt8)),
      bytes.splitOn lineFeed = texts.map Utf8.encode ++ bad :: later ∧
        (Utf8.decode? bad).isSome = false ∧
        ∀ rest, readings (lines (bytes ++ rest)) = (texts.map trimReturn, .io .notText) := by
  rcases exists_lines_eq_texts_append hend h with
    ⟨texts, bad, later, hsplit, hnone, front, hlines⟩
  have hfails : reading (bad ++ [lineFeed]) = .error (.io .notText) := by
    apply reading_of_isNone (List.append_ne_nil_of_right_ne_nil _ (List.cons_ne_nil _ _))
    rw [isSome_text?_append_lineFeed, hnone]
  refine ⟨texts, bad, later, hsplit, hnone, ?_⟩
  intro rest
  rw [lines_append hend, hlines, List.append_assoc, List.cons_append, readings_texts_append,
    readings_cons_of_error hfails, List.append_nil]

/-- What answering more lines leaves, put behind what answering the first leaves. -/
theorem transcript_append (invitation : String) (showSpans : Bool) (first second : List String) :
    transcript invitation showSpans (first ++ second) =
      answers invitation showSpans first ++ transcript invitation showSpans second := by
  rw [transcript, answers_append, Transcript.append_assoc, transcript]

/-- What is left of a session on some input. -/
def session (invitation : String) (showSpans : Bool) (input : List UInt8) : Transcript :=
  transcript invitation showSpans (readings (lines input)).1

/-- The last invitation is no complaint. -/
theorem diagnostics_session (invitation : String) (showSpans : Bool) (input : List UInt8) :
    (session invitation showSpans input).diagnostics =
      (answers invitation showSpans (readings (lines input)).1).diagnostics := by
  simp [session, transcript, Transcript.print]

/-- Behind lines that are text, a session goes on as if it began. -/
theorem session_append (hend : bytes = [] ∨ bytes.getLast? = some lineFeed)
    (h : ∀ piece ∈ bytes.splitOn lineFeed, (Utf8.decode? piece).isSome = true)
    (invitation : String) (showSpans : Bool) (rest : List UInt8) :
    session invitation showSpans (bytes ++ rest) =
      answers invitation showSpans (readings (lines bytes)).1 ++
        session invitation showSpans rest := by
  rw [session, readings_lines_append hend h, transcript_append, session]

/-- A line of text is invited and answered before what comes behind it. -/
theorem session_line_append {text : String} (htext : '\n' ∉ text.toList) (invitation : String)
    (showSpans : Bool) (rest : List UInt8) :
    session invitation showSpans (Utf8.encode text ++ lineFeed :: rest) =
      .print invitation ++ answer showSpans (trimReturn text) ++
        session invitation showSpans rest := by
  rw [session, readings_line_append htext, transcript_cons, session]

end Prompt

/-! ## The program at the prompt -/

open Prompt in
/-- If one input is made of lines that are text, the program treats another input behind it
as it does by itself, and whatever line is between the two.  If a line of the first is not
text, nothing from it on is scanned.  Either way its end is no failure. -/
theorem sessions_compose {parse : List String → Except MonkeyTokens.Stop Options}
    {arguments : List String} {showSpans : Bool}
    (hparse : parse arguments = .ok ⟨none, showSpans⟩) (readBytes : FileReader)
    (showMark : Bool) {first : List UInt8}
    (hfirst : first = [] ∨ first.getLast? = some lineFeed) (second : List UInt8) :
    let outcome input := Invocation.runWith parse ⟨arguments, readBytes, input, showMark⟩
    let invited := invitation showMark
    (∀ input, (outcome input).exitCode = 0) ∧
      ((∀ piece ∈ first.splitOn lineFeed, (Utf8.decode? piece).isSome = true) →
        ∃ before,
          (outcome first).printed = before ++ Utf8.encode invited ∧
          (outcome (first ++ second)).printed = before ++ (outcome second).printed ∧
          (outcome (first ++ second)).diagnostics =
            (outcome first).diagnostics ++ (outcome second).diagnostics ∧
          ∀ line : String, '\n' ∉ line.toList →
            let longer := outcome (first ++ (Utf8.encode line ++ lineFeed :: second))
            let found := lexemes (trimReturn line)
            longer.printed =
                before ++ (Utf8.encode (invited ++ listing showSpans found) ++
                  (outcome second).printed) ∧
              longer.diagnostics =
                (outcome first).diagnostics ++
                  (diagnose unnamedPath (trimReturn line) found ++
                    (outcome second).diagnostics)) ∧
      ((∃ piece ∈ first.splitOn lineFeed, (Utf8.decode? piece).isSome = false) →
        outcome (first ++ second) = outcome first ∧
          ∃ (texts : List String) (bad : List UInt8) (later : List (List UInt8)),
            first.splitOn lineFeed = texts.map Utf8.encode ++ bad :: later ∧
            (Utf8.decode? bad).isSome = false ∧
            outcome first =
              .conversed (.stopped (.of (.io .notText)))
                (Console.unbounded.after
                  (transcript invited showSpans (texts.map trimReturn)) texts.length)) := by
  intro outcome invited
  have hrun (input : List UInt8) :
      outcome input =
        .conversed (.stopped (.of (readings (lines input)).2))
          (Console.unbounded.after (transcript invited showSpans (readings (lines input)).1)
            (readings (lines input)).1.length) :=
    Invocation.runWith_of_prompt hparse
  have hprinted (input : List UInt8) :
      (outcome input).printed = Utf8.encode (session invited showSpans input).output := by
    rw [hrun, Outcome.printed_conversed, session]
  have hdiagnostics (input : List UInt8) :
      (outcome input).diagnostics = (session invited showSpans input).diagnostics := by
    rw [hrun, Outcome.diagnostics_conversed, session]
  refine ⟨?_, ?_, ?_⟩
  · intro input
    rw [hrun, Outcome.exitCode, exitCode_stopped_of, if_neg (error_readings_ne_interrupted _)]
  · intro hall
    have hboth (rest : List UInt8) := session_append hfirst hall invited showSpans rest
    refine ⟨Utf8.encode (answers invited showSpans (readings (lines first)).1).output,
      ?_, ?_, ?_, ?_⟩
    · rw [hprinted, session, transcript, Transcript.output_append, Utf8.encode_append]
      rfl
    · rw [hprinted, hprinted, hboth, Transcript.output_append, Utf8.encode_append]
    · rw [hdiagnostics, hdiagnostics, hdiagnostics, hboth, Transcript.diagnostics_append,
        diagnostics_session _ _ first]
    · intro line hline
      dsimp only
      rw [hprinted, hprinted, hdiagnostics, hdiagnostics, hdiagnostics, hboth,
        session_line_append hline, diagnostics_session _ _ first]
      constructor <;> simp [answer, Transcript.print, Transcript.ofSource, Utf8.encode_append]
  · intro hbad
    rcases exists_readings_lines_append hfirst hbad with
      ⟨texts, bad, later, hsplit, hnone, hread⟩
    have hfirstRead := hread []
    rw [List.append_nil] at hfirstRead
    refine ⟨?_, texts, bad, later, hsplit, hnone, ?_⟩
    · rw [hrun, hrun, hread, hfirstRead]
    · rw [hrun, hfirstRead, List.length_map]

/-- On a terminal that is shown the mark, an illegal character does not keep the next line
from being scanned, but a byte that is no text does. -/
theorem session_behind_stray_byte :
    CommandLine.parse ["--spans"] = .ok ⟨none, true⟩ ∧
      (Utf8.encode "@\r\n").getLast? = some Prompt.lineFeed ∧
      (∀ piece ∈ (Utf8.encode "@\r\n").splitOn Prompt.lineFeed,
        (Utf8.decode? piece).isSome = true) ∧
      (∃ before,
        (Invocation.run ⟨["--spans"], .ofFiles [], Utf8.encode "@\r\n", true⟩).printed =
            before ++ Utf8.encode ">> " ∧
          (Invocation.run ⟨["--spans"], .ofFiles [], Utf8.encode "@\r\n" ++ [49], true⟩).printed =
            before ++ (Invocation.run ⟨["--spans"], .ofFiles [], [49], true⟩).printed) ∧
      ([255, 10] : List UInt8).getLast? = some Prompt.lineFeed ∧
      (∃ piece ∈ ([255, 10] : List UInt8).splitOn Prompt.lineFeed,
        (Utf8.decode? piece).isSome = false) ∧
      Invocation.run ⟨["--spans"], .ofFiles [], [255, 10] ++ [49], true⟩ =
        Invocation.run ⟨["--spans"], .ofFiles [], [255, 10], true⟩ ∧
      (Invocation.run ⟨["--spans"], .ofFiles [], [255, 10], true⟩).exitCode = 0 := by
  have hparse : CommandLine.parse ["--spans"] = .ok ⟨none, true⟩ := by
    rfl
  have hend : (Utf8.encode "@\r\n").getLast? = some Prompt.lineFeed := by
    decide
  have htext : ∀ piece ∈ (Utf8.encode "@\r\n").splitOn Prompt.lineFeed,
      (Utf8.decode? piece).isSome = true := by
    decide
  have hend' : ([255, 10] : List UInt8).getLast? = some Prompt.lineFeed := by
    decide
  have hbad : ∃ piece ∈ ([255, 10] : List UInt8).splitOn Prompt.lineFeed,
      (Utf8.decode? piece).isSome = false := by
    decide
  have hgoes := (sessions_compose hparse (.ofFiles []) true (.inr hend) [49]).2.1 htext
  have hstops := sessions_compose hparse (.ofFiles []) true (.inr hend') [49]
  rcases hgoes with ⟨before, hfirst, hboth, -⟩
  exact ⟨hparse, hend, htext, ⟨before, hfirst, hboth⟩, hend', hbad, (hstops.2.2 hbad).1,
    hstops.1 [255, 10]⟩

end MonkeyTokens
