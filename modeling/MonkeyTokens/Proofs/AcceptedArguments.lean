import Mathlib.Data.List.Induction
import Mathlib.Data.List.Nodup
import Mathlib.Data.List.TakeWhile
import MonkeyTokens.Proofs.ConformingReader

/-!
# Accepted arguments

Arguments are read from left to right, yet whether a list of arguments is accepted does not
depend on the order in front of the double hyphen.  There may be operands and flags in front
of it; behind it, every argument is an operand.  Each flag may occur once, and so many
operands as were declared, whose values are accepted.

Of the reader no more is known than how one more argument changes what it finds.  So the
arguments are followed from the first to the last: what is found among them, and whether it
may be, changes in the same way.

Main results:

- Theorem `operandBehind_or`: what an argument can be behind others.
- Theorem `Conforms.read_eq_ok_iff`: which arguments a reader accepts, and what it finds.
- Theorem `CommandLine.parseWith_eq_ok_iff`: which arguments the program accepts, in any order.
-/

namespace MonkeyTokens

open SystemText

variable {α : Type} [DecidableEq α] [SystemText α]

/-! ## Parts of the arguments -/

/-- The arguments in front of the first double hyphen. -/
def beforeEnd (arguments : List α) : List α :=
  arguments.takeWhile (· ≠ doubleHyphen)

/-- The first double hyphen and the arguments behind it. -/
def fromEnd (arguments : List α) : List α :=
  arguments.dropWhile (· ≠ doubleHyphen)

/-- All operands: those in front of the first double hyphen and all arguments behind it. -/
def operands (arguments : List α) : List α :=
  (beforeEnd arguments).filter (IsOperand ·) ++ (fromEnd arguments).drop 1

/-- What there is to be found among some arguments. -/
def found (d : Declaration α) (arguments : List α) : Matches α where
  operands := operands arguments
  flags := (beforeEnd arguments).filter (· ∈ d.flags)

variable {d : Declaration α} {given : List α} {a : α}

theorem end_not_mem_beforeEnd (arguments : List α) : doubleHyphen ∉ beforeEnd arguments := by
  intro h
  have hne := List.all_eq_true.mp List.all_takeWhile _ h
  simp at hne

/-- Nothing is in front of a double hyphen that comes first. -/
theorem parts_doubleHyphen_cons (rest : List α) :
    beforeEnd (doubleHyphen :: rest) = [] ∧
      fromEnd (doubleHyphen :: rest) = doubleHyphen :: rest := by
  simp [beforeEnd, fromEnd]

/-- What follows a double hyphen does not change what is in front of it. -/
theorem parts_append_of_mem (h : doubleHyphen ∈ given) (rest : List α) :
    beforeEnd (given ++ rest) = beforeEnd given ∧
      fromEnd (given ++ rest) = fromEnd given ++ rest := by
  rcases List.eq_append_cons_of_mem h with ⟨front, back, rfl, hfront⟩
  have hne : ∀ x ∈ front, decide (x ≠ doubleHyphen) = true := by
    intro x hx
    rw [decide_eq_true_eq]
    rintro rfl
    exact hfront hx
  rw [List.append_assoc, List.cons_append]
  simp only [beforeEnd, fromEnd, List.takeWhile_append_of_pos hne,
    List.dropWhile_append_of_pos hne]
  simp

/-- Without a double hyphen in front, what follows is as if it came first. -/
theorem parts_append_of_not_mem (h : doubleHyphen ∉ given) (rest : List α) :
    beforeEnd (given ++ rest) = given ++ beforeEnd rest ∧
      fromEnd (given ++ rest) = fromEnd rest := by
  have hne : ∀ x ∈ given, decide (x ≠ doubleHyphen) = true := by
    intro x hx
    rw [decide_eq_true_eq]
    rintro rfl
    exact h hx
  exact ⟨List.takeWhile_append_of_pos hne, List.dropWhile_append_of_pos hne⟩

theorem parts_of_not_mem (h : doubleHyphen ∉ given) :
    beforeEnd given = given ∧ fromEnd given = [] := by
  simpa [beforeEnd, fromEnd] using parts_append_of_not_mem h []

/-- Nothing is in front of the first double hyphen once what is there was dropped. -/
theorem parts_fromEnd (arguments : List α) :
    beforeEnd (fromEnd arguments) = [] ∧ fromEnd (fromEnd arguments) = fromEnd arguments := by
  induction arguments with
  | nil => exact ⟨rfl, rfl⟩
  | cons a arguments ih =>
    by_cases ha : a = doubleHyphen
    · subst ha
      rw [(parts_doubleHyphen_cons arguments).2]
      exact parts_doubleHyphen_cons arguments
    · rwa [show fromEnd (a :: arguments) = fromEnd arguments by simp [fromEnd, ha]]

/-! ## One more argument -/

theorem IsOperand.ne_end (h : IsOperand a) : a ≠ doubleHyphen := by
  rintro rfl
  have hshape := isOperand_iff.mp h hyphen []
  exact hshape bytes_doubleHyphen

/-- A flag begins with a hyphen and goes on. -/
theorem not_isOperand_of_mem_flags (h : a ∈ d.flags) : ¬ IsOperand a := by
  rcases (d.flags_long a h).2 with ⟨tail, htail⟩
  intro hoperand
  exact isOperand_iff.mp hoperand hyphen tail htail.symm

/-- Behind some arguments, another is an operand, the first double hyphen, a flag, or none of
these. -/
theorem operandBehind_or (d : Declaration α) (given : List α) (a : α) :
    OperandBehind given a ∨
      doubleHyphen ∉ given ∧
        (a = doubleHyphen ∨ a ∈ d.flags ∨ ¬ IsOperand a ∧ a ≠ doubleHyphen ∧ a ∉ d.flags) := by
  by_cases hend : doubleHyphen ∈ given
  · exact .inl (.inl hend)
  · by_cases hoperand : IsOperand a
    · exact .inl (.inr hoperand)
    · refine .inr ⟨hend, ?_⟩
      by_cases ha : a = doubleHyphen
      · exact .inl ha
      · by_cases hflag : a ∈ d.flags
        · exact .inr (.inl hflag)
        · exact .inr (.inr ⟨hoperand, ha, hflag⟩)

/-- In front of a double hyphen, another argument is the last one. -/
theorem beforeEnd_concat (h : doubleHyphen ∉ given) (ha : a ≠ doubleHyphen) :
    beforeEnd (given ++ [a]) = beforeEnd given ++ [a] := by
  rw [(parts_append_of_not_mem h [a]).1, (parts_of_not_mem h).1]
  simp [beforeEnd, ha]

theorem fromEnd_concat (h : doubleHyphen ∉ given) (ha : a ≠ doubleHyphen) :
    fromEnd (given ++ [a]) = fromEnd given := by
  rw [(parts_append_of_not_mem h [a]).2, (parts_of_not_mem h).2]
  simp [fromEnd, ha]

theorem beforeEnd_concat_end (h : doubleHyphen ∉ given) :
    beforeEnd (given ++ [doubleHyphen]) = beforeEnd given := by
  rw [(parts_append_of_not_mem h [doubleHyphen]).1, (parts_of_not_mem h).1,
    (parts_doubleHyphen_cons []).1, List.append_nil]

/-- One more operand is found. -/
theorem found_concat_operand (h : OperandBehind given a) :
    found d (given ++ [a]) = (found d given).addOperand a := by
  by_cases hend : doubleHyphen ∈ given
  · rcases parts_append_of_mem hend [a] with ⟨hbefore, hfrom⟩
    have hne : fromEnd given ≠ [] := by
      intro hnil
      rw [fromEnd, List.dropWhile_eq_nil_iff] at hnil
      simpa using hnil doubleHyphen hend
    have hpos : 1 ≤ (fromEnd given).length := List.length_pos_iff.mpr hne
    simp only [found, operands, hbefore, hfrom, List.drop_append_of_le_length hpos,
      Matches.addOperand, List.append_assoc]
  · have ha : IsOperand a := h.resolve_left hend
    have hflag : a ∉ d.flags := fun hmem => not_isOperand_of_mem_flags hmem ha
    simp [found, operands, beforeEnd_concat hend ha.ne_end, fromEnd_concat hend ha.ne_end,
      (parts_of_not_mem hend).2, Matches.addOperand, ha, hflag]

/-- The first double hyphen changes nothing that is found. -/
theorem found_concat_end (h : doubleHyphen ∉ given) :
    found d (given ++ [doubleHyphen]) = found d given := by
  have hfrom : fromEnd (given ++ [doubleHyphen]) = [doubleHyphen] := by
    rw [(parts_append_of_not_mem h [doubleHyphen]).2, (parts_doubleHyphen_cons []).2]
  simp [found, operands, beforeEnd_concat_end h, hfrom, (parts_of_not_mem h).2]

/-- One more flag is found. -/
theorem found_concat_flag (h : doubleHyphen ∉ given) (ha : a ∈ d.flags) :
    found d (given ++ [a]) = (found d given).addFlag a := by
  have hne : a ≠ doubleHyphen := (d.flags_long a ha).1
  simp [found, operands, beforeEnd_concat h hne, fromEnd_concat h hne, Matches.addFlag, ha,
    not_isOperand_of_mem_flags ha]

/-! ## Accepted arguments -/

/-- What may be found among some arguments: flags once each, so many operands as were
declared, whose values are accepted, and nothing else. -/
structure Accepted (d : Declaration α) (arguments : List α) : Prop where
  known : ∀ a ∈ beforeEnd arguments, IsOperand a ∨ a ∈ d.flags
  flags_nodup : (found d arguments).flags.Nodup
  operands_length : (found d arguments).operands.length ≤ d.operandLimit
  operands_accepted : ∀ a ∈ (found d arguments).operands, d.accepts a = true

theorem accepted_nil : Accepted d [] where
  known := by simp [beforeEnd]
  flags_nodup := List.nodup_nil
  operands_length := Nat.zero_le _
  operands_accepted := by simp [found, operands, beforeEnd, fromEnd]

/-- An operand may follow if there are not too many and its value is accepted. -/
theorem accepted_concat_operand (h : OperandBehind given a) :
    Accepted d (given ++ [a]) ↔
      Accepted d given ∧ (found d given).operands.length < d.operandLimit ∧
        d.accepts a = true := by
  have hfound : found d (given ++ [a]) = (found d given).addOperand a := found_concat_operand h
  have hknown : (∀ x ∈ beforeEnd (given ++ [a]), IsOperand x ∨ x ∈ d.flags) ↔
      ∀ x ∈ beforeEnd given, IsOperand x ∨ x ∈ d.flags := by
    by_cases hend : doubleHyphen ∈ given
    · rw [(parts_append_of_mem hend [a]).1]
    · have ha : IsOperand a := h.resolve_left hend
      rw [beforeEnd_concat hend ha.ne_end, List.forall_mem_append, List.forall_mem_singleton]
      exact and_iff_left (.inl ha)
  constructor
  · rintro ⟨hk, hnodup, hlength, haccepted⟩
    rw [hfound] at hnodup hlength haccepted
    simp only [Matches.addOperand, List.length_append, List.length_singleton] at hlength
    have hall := List.forall_mem_append.mp haccepted
    exact ⟨⟨hknown.mp hk, hnodup, Nat.le_of_succ_le hlength, hall.1⟩, hlength,
      hall.2 a (List.mem_singleton_self a)⟩
  · rintro ⟨⟨hk, hnodup, -, haccepted⟩, hroom, ha⟩
    refine ⟨hknown.mpr hk, ?_, ?_, ?_⟩ <;> rw [hfound]
    · exact hnodup
    · simpa [Matches.addOperand] using Nat.succ_le_of_lt hroom
    · refine List.forall_mem_append.mpr ⟨haccepted, ?_⟩
      simpa using ha

theorem accepted_concat_end (h : doubleHyphen ∉ given) :
    Accepted d (given ++ [doubleHyphen]) ↔ Accepted d given := by
  have hfound : found d (given ++ [doubleHyphen]) = found d given := found_concat_end h
  have hbefore : beforeEnd (given ++ [doubleHyphen]) = beforeEnd given := beforeEnd_concat_end h
  constructor
  · rintro ⟨hknown, hnodup, hlength, haccepted⟩
    rw [hbefore] at hknown
    rw [hfound] at hnodup hlength haccepted
    exact ⟨hknown, hnodup, hlength, haccepted⟩
  · rintro ⟨hknown, hnodup, hlength, haccepted⟩
    exact ⟨hbefore ▸ hknown, hfound ▸ hnodup, hfound ▸ hlength, hfound ▸ haccepted⟩

/-- A flag may follow if it is new. -/
theorem accepted_concat_flag (h : doubleHyphen ∉ given) (ha : a ∈ d.flags) :
    Accepted d (given ++ [a]) ↔ Accepted d given ∧ a ∉ (found d given).flags := by
  have hfound : found d (given ++ [a]) = (found d given).addFlag a := found_concat_flag h ha
  have hbefore : beforeEnd (given ++ [a]) = beforeEnd given ++ [a] :=
    beforeEnd_concat h (d.flags_long a ha).1
  constructor
  · rintro ⟨hknown, hnodup, hlength, haccepted⟩
    rw [hbefore] at hknown
    rw [hfound] at hnodup hlength haccepted
    rcases List.nodup_append.mp hnodup with ⟨hold, -, hnew⟩
    exact ⟨⟨(List.forall_mem_append.mp hknown).1, hold, hlength, haccepted⟩,
      fun hmem => hnew a hmem a (List.mem_singleton_self a) rfl⟩
  · rintro ⟨⟨hknown, hnodup, hlength, haccepted⟩, hnew⟩
    refine ⟨?_, ?_, ?_, ?_⟩
    · rw [hbefore]
      exact List.forall_mem_append.mpr ⟨hknown, List.forall_mem_singleton.mpr (.inr ha)⟩
    · rw [hfound]
      refine List.nodup_append.mpr ⟨hnodup, List.nodup_singleton a, ?_⟩
      rintro x hx y hy rfl
      exact hnew (List.mem_singleton.mp hy ▸ hx)
    · rwa [hfound]
    · rwa [hfound]

/-- Nothing else may follow. -/
theorem not_accepted_concat (h : doubleHyphen ∉ given) (hoperand : ¬ IsOperand a)
    (hend : a ≠ doubleHyphen) (hflag : a ∉ d.flags) : ¬ Accepted d (given ++ [a]) := by
  intro haccepted
  have hmem : a ∈ beforeEnd (given ++ [a]) := by
    rw [beforeEnd_concat h hend]
    exact List.mem_append_right _ (List.mem_singleton_self a)
  rcases haccepted.known a hmem with hknown | hknown
  · exact hoperand hknown
  · exact hflag hknown

/-! ## Readers -/

namespace Conforms

variable {ε : Type} {read : ArgumentReader α ε} {m : Matches α}

/-- What is found among some arguments was found among fewer of them, or more. -/
theorem exists_of_concat (h : Conforms d read) (hread : read (given ++ [a]) = .ok m) :
    ∃ m₀, read given = .ok m₀ := by
  cases hgiven : read given with
  | error e =>
    have hrefuses : read.Refuses given := fun m₀ hok => by
      rw [hgiven] at hok
      cases hok
    exact absurd hread (h.refuses_append hrefuses [a] m)
  | ok m₀ => exact ⟨m₀, rfl⟩

theorem read_concat_operand (h : Conforms d read) (ha : OperandBehind given a) :
    read (given ++ [a]) = .ok m ↔
      ∃ m₀, read given = .ok m₀ ∧ m₀.operands.length < d.operandLimit ∧ d.accepts a = true ∧
        m = m₀.addOperand a := by
  constructor
  · intro hread
    rcases h.exists_of_concat hread with ⟨m₀, hgiven⟩
    have hroom : m₀.operands.length < d.operandLimit :=
      Nat.lt_of_not_le fun hfull => h.operand_surplus hgiven ha hfull m hread
    have hvalue : d.accepts a = true :=
      eq_true_of_ne_false fun hbad => h.operand_value hgiven ha hbad m hread
    rw [h.operand hgiven ha hroom hvalue] at hread
    exact ⟨m₀, hgiven, hroom, hvalue, (Except.ok.inj hread).symm⟩
  · rintro ⟨m₀, hgiven, hroom, hvalue, rfl⟩
    exact h.operand hgiven ha hroom hvalue

theorem read_concat_end (h : Conforms d read) (hgiven : doubleHyphen ∉ given) :
    read (given ++ [doubleHyphen]) = .ok m ↔ read given = .ok m := by
  constructor
  · intro hread
    rcases h.exists_of_concat hread with ⟨m₀, hok⟩
    rw [h.double_hyphen hok hgiven] at hread
    rw [hok, hread]
  · intro hok
    exact h.double_hyphen hok hgiven

theorem read_concat_flag (h : Conforms d read) (hgiven : doubleHyphen ∉ given) (ha : a ∈ d.flags) :
    read (given ++ [a]) = .ok m ↔
      ∃ m₀, read given = .ok m₀ ∧ a ∉ m₀.flags ∧ m = m₀.addFlag a := by
  constructor
  · intro hread
    rcases h.exists_of_concat hread with ⟨m₀, hok⟩
    have hnew : a ∉ m₀.flags := fun hold => h.flag_repeated hok hgiven ha hold m hread
    rw [h.flag hok hgiven ha hnew] at hread
    exact ⟨m₀, hok, hnew, (Except.ok.inj hread).symm⟩
  · rintro ⟨m₀, hok, hnew, rfl⟩
    exact h.flag hok hgiven ha hnew

/-- A reader accepts exactly the arguments among which nothing is found that may not be, and
finds what there is to be found. -/
theorem read_eq_ok_iff (h : Conforms d read) {arguments : List α} :
    read arguments = .ok m ↔ Accepted d arguments ∧ m = found d arguments := by
  induction arguments using List.reverseRecOn generalizing m with
  | nil =>
    rw [h.nil, Except.ok.injEq, eq_comm]
    exact (and_iff_right accepted_nil).symm
  | append_singleton given a ih =>
    rcases operandBehind_or d given a with
      hoperand | ⟨hgiven, rfl | hflag | ⟨hoperand, hend, hflag⟩⟩
    · rw [h.read_concat_operand hoperand, accepted_concat_operand hoperand,
        found_concat_operand hoperand]
      simp only [ih, and_assoc, exists_and_left, exists_eq_left]
    · rw [h.read_concat_end hgiven, accepted_concat_end hgiven, found_concat_end hgiven, ih]
    · rw [h.read_concat_flag hgiven hflag, accepted_concat_flag hgiven hflag,
        found_concat_flag hgiven hflag]
      simp only [ih, and_assoc, exists_and_left, exists_eq_left]
    · apply iff_of_false
      · intro hread
        rcases h.exists_of_concat hread with ⟨m₀, hok⟩
        exact h.other hok hgiven hoperand hend hflag m hread
      · exact fun hboth => not_accepted_concat hgiven hoperand hend hflag hboth.1

end Conforms

/-! ## The order of the arguments -/

/-- The order in front of the double hyphen changes that of what is found, and no more. -/
theorem found_perm {reordered arguments : List α}
    (hbefore : (beforeEnd reordered).Perm (beforeEnd arguments))
    (hfrom : fromEnd reordered = fromEnd arguments) :
    (found d reordered).operands.Perm (found d arguments).operands ∧
      (found d reordered).flags.Perm (found d arguments).flags := by
  refine ⟨?_, hbefore.filter _⟩
  simp only [found, operands, hfrom]
  exact (hbefore.filter _).append_right _

/-- The order in front of the double hyphen does not matter to whether arguments are
accepted. -/
theorem Accepted.reorder {reordered arguments : List α} (h : Accepted d arguments)
    (hbefore : (beforeEnd reordered).Perm (beforeEnd arguments))
    (hfrom : fromEnd reordered = fromEnd arguments) : Accepted d reordered := by
  rcases found_perm (d := d) hbefore hfrom with ⟨hoperands, hflags⟩
  refine ⟨fun a ha => h.known a (hbefore.mem_iff.mp ha), hflags.nodup_iff.mpr h.flags_nodup, ?_,
    fun a ha => h.operands_accepted a (hoperands.mem_iff.mp ha)⟩
  rw [hoperands.length_eq]
  exact h.operands_length

/-- The double hyphen stays the first one if there is none in what is put before it. -/
theorem parts_append_fromEnd {before : List α} (h : doubleHyphen ∉ before)
    (arguments : List α) :
    beforeEnd (before ++ fromEnd arguments) = before ∧
      fromEnd (before ++ fromEnd arguments) = fromEnd arguments := by
  rcases parts_append_of_not_mem h (fromEnd arguments) with ⟨hbefore, hfrom⟩
  rw [hbefore, hfrom, (parts_fromEnd arguments).1, (parts_fromEnd arguments).2]
  exact ⟨List.append_nil before, rfl⟩

/-! ## The program's own arguments -/

namespace CommandLine

variable {ε : Type} {read : ArgumentReader α ε} {arguments : List α} {o : Options α}

/-- The program accepts the arguments that its reader does, and makes options of what is
found. -/
theorem parseWith_eq_ok_iff_accepted (h : Conforms declaration read) :
    parseWith read arguments = .ok o ↔
      Accepted declaration arguments ∧ o = options (found declaration arguments) := by
  rw [parseWith]
  constructor
  · intro hparse
    cases hread : read arguments with
    | error e =>
      rw [hread] at hparse
      cases hparse
    | ok m =>
      rw [hread] at hparse
      rcases h.read_eq_ok_iff.mp hread with ⟨haccepted, rfl⟩
      exact ⟨haccepted, (Except.ok.inj hparse).symm⟩
  · rintro ⟨haccepted, rfl⟩
    rw [h.read_eq_ok_iff.mpr ⟨haccepted, rfl⟩]
    rfl

/-- With one flag and one operand declared, what is accepted can be counted. -/
theorem accepted_declaration_iff :
    Accepted declaration arguments ↔
      (∀ a ∈ beforeEnd arguments, IsOperand a ∨ a = ofText "--spans") ∧
        (beforeEnd arguments).count (ofText "--spans") ≤ 1 ∧ (operands arguments).length ≤ 1 ∧
        ofText "" ∉ operands arguments := by
  have hknown : (∀ a ∈ beforeEnd arguments, IsOperand a ∨ a ∈ declaration.flags) ↔
      ∀ a ∈ beforeEnd arguments, IsOperand a ∨ a = ofText "--spans" := by
    simp only [declaration, List.mem_singleton]
  have hflags : (found declaration arguments).flags.Nodup ↔
      (beforeEnd arguments).count (ofText "--spans") ≤ 1 := by
    simp only [found, declaration, List.mem_singleton]
    rw [List.filter_eq, List.nodup_replicate]
  have hvalues : (∀ a ∈ (found declaration arguments).operands, declaration.accepts a = true) ↔
      ofText "" ∉ operands arguments := by
    simp only [found, declaration, decide_eq_true_eq]
    exact ⟨fun h hmem => h (ofText "") hmem rfl, fun h a ha heq => h (heq ▸ ha)⟩
  constructor
  · intro h
    exact ⟨hknown.mp h.known, hflags.mp h.flags_nodup, h.operands_length,
      hvalues.mp h.operands_accepted⟩
  · rintro ⟨hk, hcount, hlength, hempty⟩
    exact ⟨hknown.mpr hk, hflags.mpr hcount, hlength, hvalues.mpr hempty⟩

/-- The options say which operand comes first, and whether the flag is there. -/
theorem options_found (arguments : List α) :
    options (found declaration arguments) =
      ⟨(operands arguments).head?, decide (ofText "--spans" ∈ beforeEnd arguments)⟩ := by
  simp [options, found, declaration]

/-- Where one operand may be given, the order of the arguments does not matter to the
options. -/
theorem options_found_perm {reordered : List α}
    (hlength : (operands arguments).length ≤ 1)
    (hbefore : (beforeEnd reordered).Perm (beforeEnd arguments))
    (hfrom : fromEnd reordered = fromEnd arguments) :
    options (found declaration reordered) =
      options (found declaration arguments) := by
  have hoperands : operands reordered = operands arguments := by
    have hperm : (operands reordered).Perm (operands arguments) :=
      (found_perm (d := declaration) hbefore hfrom).1
    match hlist : operands arguments with
    | [] => exact (hlist ▸ hperm).eq_nil
    | [script] => exact List.perm_singleton.mp (hlist ▸ hperm)
    | _ :: _ :: _ => simp [hlist] at hlength
  rw [options_found, options_found, hoperands, Options.mk.injEq]
  exact ⟨rfl, decide_eq_decide.mpr hbefore.mem_iff⟩

/-- Arguments are accepted exactly if those in front of the double hyphen are operands or the
flag for spans, that flag is given at most once, and so is an operand, which is not empty.  Then
the operand is the script, and the flag shows the spans. -/
theorem parseWith_eq_ok_iff (hread : Conforms declaration read) (arguments : List α)
    (o : Options α) :
    (parseWith read arguments = .ok o ↔
      (∀ a ∈ beforeEnd arguments, IsOperand a ∨ a = ofText "--spans") ∧
        (beforeEnd arguments).count (ofText "--spans") ≤ 1 ∧ (operands arguments).length ≤ 1 ∧
        ofText "" ∉ operands arguments ∧
        o = ⟨(operands arguments).head?, decide (ofText "--spans" ∈ beforeEnd arguments)⟩) ∧
      ∀ reordered : List α, reordered.Perm (beforeEnd arguments) →
        (parseWith read (reordered ++ fromEnd arguments) = .ok o ↔
          parseWith read arguments = .ok o) := by
  constructor
  · rw [parseWith_eq_ok_iff_accepted hread, accepted_declaration_iff, options_found]
    simp only [and_assoc]
  · intro reordered hperm
    have hend : doubleHyphen ∉ reordered := mt hperm.mem_iff.mp (end_not_mem_beforeEnd arguments)
    rcases parts_append_fromEnd hend arguments with ⟨hbefore, hfrom⟩
    have hperm' : (beforeEnd (reordered ++ fromEnd arguments)).Perm (beforeEnd arguments) := by
      rwa [hbefore]
    rw [parseWith_eq_ok_iff_accepted hread, parseWith_eq_ok_iff_accepted hread]
    constructor
    · rintro ⟨haccepted, rfl⟩
      have hback : Accepted declaration arguments :=
        haccepted.reorder hperm'.symm hfrom.symm
      exact ⟨hback, options_found_perm hback.operands_length hperm' hfrom⟩
    · rintro ⟨haccepted, rfl⟩
      exact ⟨haccepted.reorder hperm' hfrom,
        (options_found_perm haccepted.operands_length hperm' hfrom).symm⟩

/-- A script whose name is no text may be given before the flag and behind it. -/
theorem parseWith_byte_behind_spans :
    let read : ArgumentReader (List UInt8) (Stop (List UInt8)) := Matches.read declaration
    let given : List (List UInt8) := [[255], ofText "--spans", ofText "--"]
    Conforms declaration read ∧ [ofText "--spans", [255]].Perm (beforeEnd given) ∧
      parseWith read ([ofText "--spans", [255]] ++ fromEnd given) = .ok ⟨some [255], true⟩ := by
  intro read given
  have hread : Conforms declaration read := Matches.conforms_read declaration
  have hperm : [ofText "--spans", [255]].Perm (beforeEnd given) := List.Perm.swap _ _ _
  refine ⟨hread, hperm, ((parseWith_eq_ok_iff hread given _).2 _ hperm).mpr ?_⟩
  rw [(parseWith_eq_ok_iff hread given _).1]
  decide

end CommandLine

end MonkeyTokens
