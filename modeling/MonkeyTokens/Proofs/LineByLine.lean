import MonkeyTokens.Program
import MonkeyTokens.Proofs.Lines
import MonkeyTokens.Proofs.ProperLexemes

/-!
# Scripts line by line

A script is scanned as a whole, while the prompt scans each line anew.  No lexeme goes
beyond a line feed and none depends on what stands before it, and a carriage return that
is cut from a line is a blank.  So both find the same tokens, and on each line the same
lexemes, but for where the line begins.

Main results:

- Theorem `properLexemes_line_append`: the lexemes of a first line and of what follows it.
- Theorem `map_token_properLexemes`: the tokens of a text are those of its lines.
- Theorem `filter_line_properLexemes`: the lexemes on a line are those of the line.
- Theorem `script_agrees_with_prompt`: a script and the same text at the prompt agree.
-/

namespace MonkeyTokens

variable {text line : String}

/-! ## Lexemes of the first line -/

theorem Lexeme.shift_comp_shift (bytes lines bytes' lines' : Nat) :
    Lexeme.shift bytes' lines' ∘ Lexeme.shift bytes lines =
      Lexeme.shift (bytes + bytes') (lines + lines') := by
  funext l
  simp [shift, Nat.add_assoc]

theorem Lexeme.shift_zero : Lexeme.shift 0 0 = id :=
  rfl

/-- The proper lexemes of a first line and of what follows it. -/
theorem properLexemes_line_append (h : '\n' ∉ line.toList) (rest : String) :
    properLexemes (line ++ "\n" ++ rest) =
      properLexemes line ++
        (properLexemes rest).map (Lexeme.shift (Utf8.width line.toList + 1) 1) := by
  have hglue : ¬ Glues line ("\n" ++ rest) := by
    apply not_glues_of_head?
    intro c hc
    have hfeed : '\n' = c := by
      simpa using hc
    subst hfeed
    decide
  have hgap : IsGap "\n".toList := by
    simp [IsGap, blankChars]
  have hcount : line.toList.count '\n' = 0 := List.count_eq_zero.mpr h
  have hfeed : properLexemes ("\n" ++ rest) = (properLexemes rest).map (Lexeme.shift 1 1) :=
    properLexemes_gap_append hgap
  rw [String.append_assoc, properLexemes_append hglue, hfeed, hcount, List.map_map,
    Lexeme.shift_comp_shift, Nat.add_comm 1]

/-- A carriage return that is cut from a line is on none of its lexemes. -/
theorem properLexemes_trimReturn (line : String) :
    properLexemes (Prompt.trimReturn line) = properLexemes line := by
  rcases Prompt.trimReturn_cases line with hreturn | ⟨-, htrim⟩
  · have hgap : IsGap "\r".toList := by
      simp [IsGap, blankChars]
    conv => rhs; rw [hreturn, properLexemes_append_gap hgap]
  · rw [htrim]

/-! ## Lexemes of all lines -/

theorem properLexemes_empty : properLexemes "" = [] :=
  properLexemes_of_isGap isGap_nil

/-- The tokens of a text are those of its lines. -/
theorem map_token_properLexemes (text : String) :
    (properLexemes text).map Lexeme.token =
      (Prompt.answered text).flatMap fun line => (properLexemes line).map Lexeme.token := by
  induction text using lines_induction with
  | last line hline =>
    rw [Prompt.answered_last hline]
    split
    · rename_i hempty
      subst hempty
      rw [properLexemes_empty, List.map_nil, List.flatMap_nil]
    · rw [List.flatMap_singleton]
  | cons line rest hline ih =>
    rw [properLexemes_line_append hline, Prompt.answered_cons hline, List.map_append,
      List.flatMap_cons, properLexemes_trimReturn, ← ih, List.map_map]
    rfl

/-- No lexeme of a text without line feeds lies on another line than the first. -/
theorem filter_line_of_not_mem (h : '\n' ∉ line.toList) (n : Nat) :
    (properLexemes line).filter (fun l => l.span.line == n + 1) =
      if n = 0 then properLexemes line else [] := by
  split
  · rename_i hn
    subst hn
    rw [List.filter_eq_self]
    intro l hl
    rw [line_eq_one_of_mem_properLexemes h hl]
    rfl
  · rw [List.filter_eq_nil_iff]
    intro l hl
    rw [line_eq_one_of_mem_properLexemes h hl, beq_iff_eq]
    omega

/-- Nothing that follows a line lies on it. -/
theorem filter_line_shift_zero (text : String) (bytes : Nat) :
    ((properLexemes text).map (Lexeme.shift bytes 1)).filter (fun l => l.span.line == 0 + 1) =
      [] := by
  rw [List.filter_eq_nil_iff]
  intro l hl
  rcases List.mem_map.mp hl with ⟨l', hl', rfl⟩
  have hline := (line_le_of_mem_properLexemes hl').1
  simp only [Lexeme.shift, beq_iff_eq]
  omega

/-- The lexemes on the next line are those on the line, moved to the next. -/
theorem filter_line_shift_succ (text : String) (bytes n : Nat) :
    ((properLexemes text).map (Lexeme.shift bytes 1)).filter
        (fun l => l.span.line == n + 1 + 1) =
      ((properLexemes text).filter fun l => l.span.line == n + 1).map
        (Lexeme.shift bytes 1) := by
  rw [List.filter_map]
  congr 1
  apply List.filter_congr
  intro l _
  simp [Lexeme.shift]

/-- The lexemes on a line are those of the line, moved to where the line begins. -/
theorem filter_line_properLexemes (text : String) (n : Nat) :
    (properLexemes text).filter (fun l => l.span.line == n + 1) =
      (properLexemes ((Prompt.answered text).getD n "")).map
        (Lexeme.shift (lineStart text n) n) := by
  -- The lines behind the first are counted anew, so this is for every `n` at once.
  induction text using lines_induction generalizing n with
  | last line hline =>
    rw [filter_line_of_not_mem hline, Prompt.getD_answered_last hline]
    cases n with
    | zero =>
      rw [if_pos rfl, if_pos rfl, lineStart_zero, Lexeme.shift_zero, List.map_id]
    | succ n =>
      rw [if_neg n.succ_ne_zero, if_neg n.succ_ne_zero, properLexemes_empty, List.map_nil]
  | cons line rest hline ih =>
    rw [properLexemes_line_append hline, Prompt.answered_cons hline, List.filter_append,
      filter_line_of_not_mem hline]
    cases n with
    | zero =>
      rw [if_pos rfl, filter_line_shift_zero, List.append_nil, List.getD_cons_zero,
        properLexemes_trimReturn, lineStart_zero, Lexeme.shift_zero, List.map_id]
    | succ n =>
      rw [if_neg n.succ_ne_zero, filter_line_shift_succ, ih, List.nil_append,
        List.getD_cons_succ, List.map_map, Lexeme.shift_comp_shift, lineStart_succ hline,
        Nat.add_comm (lineStart rest n)]

/-- The lexemes of a line that is answered lie on its first line, as it has no other. -/
theorem line_eq_one_of_answered {n : Nat} {l : Lexeme}
    (hl : l ∈ properLexemes ((Prompt.answered text).getD n "")) : l.span.line = 1 := by
  have hmoved : l.shift (lineStart text n) n ∈
      (properLexemes text).filter fun l => l.span.line == n + 1 := by
    rw [filter_line_properLexemes]
    exact List.mem_map_of_mem hl
  have hline : l.span.line + n = n + 1 := by
    simpa [Lexeme.shift] using (List.mem_filter.mp hmoved).2
  omega

/-! ## Scripts and the prompt -/

/-- The prompt lists the tokens of a text like a script, if it shows no spans. -/
theorem listing_eq_join_answered (text : String) :
    listing false (lexemes text) =
      String.join ((Prompt.answered text).map fun line => listing false (lexemes line)) := by
  simp only [listing, entries_lexemes_false]
  rw [map_token_properLexemes]
  induction Prompt.answered text with
  | nil => rfl
  | cons line rest ih =>
    rw [List.flatMap_cons, List.map_append, String.join_append, ih, List.map_cons,
      String.join_cons]

/-- Only proper lexemes are illegal. -/
theorem countP_isIllegal_lexemes (text : String) :
    (lexemes text).countP Lexeme.isIllegal =
      ((properLexemes text).map Lexeme.token).countP Token.isIllegal := by
  rw [lexemes_eq_append, List.countP_append, List.countP_map]
  rfl

/-- The prompt complains as often of a text as of a script. -/
theorem length_diagnose_eq_answered (path other text : String) :
    (diagnose path text (lexemes text)).length =
      ((Prompt.answered text).flatMap fun line => diagnose other line (lexemes line)).length := by
  simp only [List.length_flatMap, length_diagnose, countP_isIllegal_lexemes]
  rw [map_token_properLexemes, List.countP_flatMap]
  rfl

/-- A script and the same text at the prompt print the same without spans and get as many
complaints.  With spans, what a script prints for a line is what the prompt prints for it,
moved to where the line begins. -/
theorem script_agrees_with_prompt {parse : List String → Except Stop Options}
    {scriptArguments promptArguments : List String} {readBytes : FileReader}
    {path text : String} {showSpans : Bool}
    (hscript : parse scriptArguments = .ok ⟨some path, showSpans⟩)
    (hread : readBytes path = .ok (Utf8.encode text))
    (hprompt : parse promptArguments = .ok ⟨none, showSpans⟩)
    (otherBytes : FileReader) (input : List UInt8) (showMark : Bool) :
    let script := Invocation.runWith parse ⟨scriptArguments, readBytes, input, showMark⟩
    let prompt := Invocation.runWith parse ⟨promptArguments, otherBytes, Utf8.encode text, false⟩
    (showSpans = false → script.printed = prompt.printed) ∧
      script.diagnostics.length = prompt.diagnostics.length ∧
      script.printed = Utf8.encode (listing showSpans (lexemes text)) ∧
      prompt.printed = Utf8.encode
        (String.join ((Prompt.answered text).map fun line => listing showSpans (lexemes line))) ∧
      Prompt.readings (Prompt.lines (Utf8.encode text)) = (Prompt.answered text, .endOfInput) ∧
      ∀ n,
        (listed (lexemes text)).filter (fun l => l.span.line == n + 1) =
            (listed (lexemes ((Prompt.answered text).getD n ""))).map
              (Lexeme.shift (lineStart text n) n) ∧
          ∀ l ∈ listed (lexemes ((Prompt.answered text).getD n "")), l.span.line = 1 := by
  have hreadings := Prompt.readings_lines_encode text
  have hrunScript : Invocation.runWith parse ⟨scriptArguments, readBytes, input, showMark⟩ =
      .checked (Script.run .unbounded path text showSpans) := by
    rw [Invocation.runWith_of_script hscript hread, runScript_encode]
  have hrunPrompt :
      Invocation.runWith parse ⟨promptArguments, otherBytes, Utf8.encode text, false⟩ =
        .conversed (.stopped .closed)
          (Console.unbounded.after (Prompt.transcript "" showSpans (Prompt.answered text))
            (Prompt.answered text).length) := by
    rw [Invocation.runWith_of_prompt hprompt, hreadings]
    rfl
  dsimp only
  rw [hrunScript, hrunPrompt, Outcome.printed_checked, Outcome.diagnostics_checked,
    Outcome.printed_conversed, Outcome.diagnostics_conversed, Prompt.transcript_empty_eq]
  refine ⟨?_, length_diagnose_eq_answered path unnamedPath text, rfl, rfl, hreadings, ?_⟩
  · rintro rfl
    rw [listing_eq_join_answered]
  · intro n
    rw [listed_lexemes, listed_lexemes]
    exact ⟨filter_line_properLexemes text n, fun l hl => line_eq_one_of_answered hl⟩

/-- Reading, where one file can be read, at a path from the root. -/
def onlyScript (content : List UInt8) : FileReader := fun path =>
  if path = "/a.mk" then .ok content else .error .notFound

/-- The carriage return before the second line counts for where it begins, although the
prompt never scans it. -/
theorem script_agrees_behind_return :
    CommandLine.parse ["/a.mk", "--spans"] = .ok ⟨some "/a.mk", true⟩ ∧
      onlyScript (Utf8.encode "é @\r\n+ 1") "/a.mk" = .ok (Utf8.encode "é @\r\n+ 1") ∧
      CommandLine.parse ["--spans"] = .ok ⟨none, true⟩ ∧
      Prompt.answered "é @\r\n+ 1" = ["é @", "+ 1"] ∧
      (listed (lexemes "é @\r\n+ 1")).filter (fun l => l.span.line == 2) =
        (listed (lexemes "+ 1")).map (Lexeme.shift 6 1) := by
  have hscript : CommandLine.parse ["/a.mk", "--spans"] = .ok ⟨some "/a.mk", true⟩ := by
    rfl
  have hread : onlyScript (Utf8.encode "é @\r\n+ 1") "/a.mk" =
      .ok (Utf8.encode "é @\r\n+ 1") := by
    rfl
  have hprompt : CommandLine.parse ["--spans"] = .ok ⟨none, true⟩ := by
    rfl
  have hagree := script_agrees_with_prompt hscript hread hprompt (onlyScript []) [] false
  exact ⟨hscript, hread, hprompt, rfl, (hagree.2.2.2.2.2 1).1⟩

end MonkeyTokens
