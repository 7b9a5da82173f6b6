import MonkeyTokens.CommandLine

/-!
# A conforming reader

The reader of arguments that the program is run with keeps the rules that are assumed of
any.  It goes from argument to argument, so what it makes of some arguments and one more
is what it makes of that one behind what it took before.  Only the values of the operands
are looked at late; but operands are never dropped, so a bad one is noticed in the end.

Main results:

- Theorem `Matches.takeArguments_append`: taking arguments behind others.
- Theorem `Matches.conforms_read`: the reader of arguments conforms to a declaration.
-/

namespace MonkeyTokens

open SystemText

variable {α : Type} [DecidableEq α] [SystemText α] {d : Declaration α} {a : α}

/-! ## Shapes of arguments -/

theorem bytes_doubleHyphen : bytes (doubleHyphen : α) = [hyphen, hyphen] := by
  rw [doubleHyphen, bytes_ofText]
  decide

theorem isOperand_iff : IsOperand a ↔ ∀ c tail, bytes a ≠ hyphen :: c :: tail := by
  rw [IsOperand]
  match bytes a with
  | [] => simp
  | [c] => simp [Classical.em]
  | c :: b :: tail => simp

namespace Argument

theorem of_eq_operand_iff : of d a = .operand ↔ IsOperand a := by
  rw [isOperand_iff]
  unfold of
  split
  case h_1 tail h =>
    apply iff_of_false
    · grind
    · exact fun hnone => hnone _ _ h
  case h_5 hnone => exact iff_of_true rfl hnone
  all_goals
    rename_i h
    exact iff_of_false (by simp) fun hnone => hnone _ _ h

theorem of_eq_endOfFlags_iff : of d a = .endOfFlags ↔ a = doubleHyphen := by
  constructor
  · unfold of
    grind
  · rintro rfl
    simp only [of, bytes_doubleHyphen, hyphen, if_true]

theorem of_eq_flag_iff : of d a = .flag ↔ a ∈ d.flags := by
  constructor
  · unfold of
    grind
  · intro h
    rcases d.flags_long a h with ⟨hne, tail, hlong⟩
    simp only [of, ← hlong, hyphen, List.cons_append, if_neg hne, if_pos h]

end Argument

namespace Matches

variable {m m' : Matches α} {given : List α}

/-! ## One argument -/

theorem bind_eq_ok_iff {ε β γ : Type} {x : Except ε β} {f : β → Except ε γ} {result : γ} :
    x >>= f = .ok result ↔ ∃ b, x = .ok b ∧ f b = .ok result := by
  cases x <;> simp [bind, Except.bind]

theorem settle_eq_ok_iff :
    m.settle d = .ok m' ↔ (∀ a ∈ m.operands, d.accepts a = true) ∧ m' = m := by
  unfold settle
  split
  case isTrue h =>
    rw [Except.ok.injEq, eq_comm]
    exact (and_iff_right (List.all_eq_true.mp h)).symm
  case isFalse h => exact iff_of_false (by simp) fun hboth => h (List.all_eq_true.mpr hboth.1)

theorem takeOperand_eq_ok_iff :
    m.takeOperand d a = .ok m' ↔ m.operands.length < d.operandLimit ∧ m' = m.addOperand a := by
  unfold takeOperand
  split
  case isTrue h => simp [h, eq_comm (a := m')]
  case isFalse h => simp [h]

theorem takeFlag_eq_ok_iff :
    m.takeFlag d a = .ok m' ↔
      (∀ x ∈ m.operands, d.accepts x = true) ∧ a ∉ m.flags ∧ m' = m.addFlag a := by
  unfold takeFlag
  rw [bind_eq_ok_iff]
  simp only [settle_eq_ok_iff, and_assoc, exists_and_left, exists_eq_left]
  split
  case isTrue h => simp [h]
  case isFalse h => simp [h, eq_comm (a := m')]

/-! ## Arguments behind others -/

theorem takeOperands_append (m : Matches α) (given rest : List α) :
    m.takeOperands d (given ++ rest) = m.takeOperands d given >>= (·.takeOperands d rest) := by
  induction given generalizing m with
  | nil => rfl
  | cons x given ih => simp only [List.cons_append, takeOperands, ih, bind_assoc]

/-- Takes arguments behind others: all are operands if a double hyphen is among those. -/
def takeBehind (d : Declaration α) (given : List α) (m : Matches α) (rest : List α) :
    Except (Stop α) (Matches α) :=
  if doubleHyphen ∈ given then m.takeOperands d rest else m.takeArguments d rest

/-- Taking arguments is taking the first of them and then the others behind these. -/
theorem takeArguments_append (m : Matches α) (given rest : List α) :
    m.takeArguments d (given ++ rest) =
      m.takeArguments d given >>= (takeBehind d given · rest) := by
  induction given generalizing m with
  | nil => rfl
  | cons x given ih =>
    rw [List.cons_append, takeArguments, takeArguments]
    by_cases hx : x = doubleHyphen
    · subst hx
      simp only [Argument.of_eq_endOfFlags_iff.mpr, takeOperands_append, takeBehind,
        List.mem_cons_self, if_true]
    · have hbehind : takeBehind d (x :: given) = takeBehind d given := by
        funext m rest
        simp only [takeBehind, List.mem_cons, Ne.symm hx, false_or]
      rw [hbehind]
      cases hshape : Argument.of d x with
      | endOfFlags => exact absurd (Argument.of_eq_endOfFlags_iff.mp hshape) hx
      | operand | flag => simp only [ih, bind_assoc]
      | help | version => simp only [bind_assoc]; rfl
      | valued | unknown => rfl

/-- Operands are never dropped. -/
theorem prefix_of_takeOperands {rest : List α} (h : m.takeOperands d rest = .ok m') :
    m.operands <+: m'.operands := by
  induction rest generalizing m with
  | nil =>
    cases h
    exact List.prefix_refl _
  | cons x rest ih =>
    rcases bind_eq_ok_iff.mp h with ⟨m₁, htake, hrest⟩
    rcases takeOperand_eq_ok_iff.mp htake with ⟨-, rfl⟩
    exact (List.prefix_append _ _).trans (ih hrest)

theorem prefix_of_takeArguments {rest : List α} (h : m.takeArguments d rest = .ok m') :
    m.operands <+: m'.operands := by
  induction rest generalizing m with
  | nil =>
    cases h
    exact List.prefix_refl _
  | cons x rest ih =>
    rw [takeArguments] at h
    cases hshape : Argument.of d x with
    | operand =>
      rw [hshape] at h
      rcases bind_eq_ok_iff.mp h with ⟨m₁, htake, hrest⟩
      rcases takeOperand_eq_ok_iff.mp htake with ⟨-, rfl⟩
      exact (List.prefix_append _ _).trans (ih hrest)
    | endOfFlags =>
      rw [hshape] at h
      exact prefix_of_takeOperands h
    | flag =>
      rw [hshape] at h
      rcases bind_eq_ok_iff.mp h with ⟨m₁, htake, hrest⟩
      rcases takeFlag_eq_ok_iff.mp htake with ⟨-, -, rfl⟩
      have hoperands := ih hrest
      exact hoperands
    | help | version =>
      rw [hshape] at h
      rcases bind_eq_ok_iff.mp h with ⟨m₁, -, hstop⟩
      cases hstop
    | valued | unknown =>
      rw [hshape] at h
      cases h

/-! ## The reader -/

theorem read_eq_ok_iff :
    read d given = .ok m ↔
      empty.takeArguments d given = .ok m ∧ ∀ a ∈ m.operands, d.accepts a = true := by
  rw [read, bind_eq_ok_iff]
  constructor
  · rintro ⟨m₁, htake, hsettle⟩
    rcases settle_eq_ok_iff.mp hsettle with ⟨haccepts, rfl⟩
    exact ⟨htake, haccepts⟩
  · rintro ⟨htake, haccepts⟩
    exact ⟨m, htake, settle_eq_ok_iff.mpr ⟨haccepts, rfl⟩⟩

/-- Behind arguments that were read, one more is taken and settled. -/
theorem read_concat (h : read d given = .ok m) (a : α) :
    read d (given ++ [a]) = takeBehind d given m [a] >>= settle d := by
  rw [read, takeArguments_append, (read_eq_ok_iff.mp h).1]
  rfl

theorem takeBehind_operand (h : OperandBehind given a) (m : Matches α) :
    takeBehind d given m [a] = m.takeOperand d a := by
  unfold takeBehind
  split
  case isTrue =>
    rw [takeOperands]
    exact bind_pure _
  case isFalse hend =>
    rw [takeArguments, Argument.of_eq_operand_iff.mpr (h.resolve_left hend)]
    exact bind_pure _

/-- If the reader takes arguments and others behind them, it takes the first by themselves. -/
theorem exists_read_of_append {rest : List α} (h : read d (given ++ rest) = .ok m) :
    ∃ m₀, read d given = .ok m₀ := by
  rcases read_eq_ok_iff.mp h with ⟨htake, haccepts⟩
  rw [takeArguments_append] at htake
  rcases bind_eq_ok_iff.mp htake with ⟨m₀, hgiven, hrest⟩
  have hkept : m₀.operands <+: m.operands := by
    unfold takeBehind at hrest
    split at hrest
    · exact prefix_of_takeOperands hrest
    · exact prefix_of_takeArguments hrest
  exact ⟨m₀, read_eq_ok_iff.mpr ⟨hgiven, fun x hx => haccepts x (hkept.mem hx)⟩⟩

/-- The reader of arguments conforms to the declaration that it reads by. -/
theorem conforms_read (d : Declaration α) : Conforms d (read d) where
  nil := by
    rw [read_eq_ok_iff]
    exact ⟨rfl, by simp [empty]⟩
  refuses_append := by
    intro given hrefuses rest m h
    rcases exists_read_of_append h with ⟨m₀, hgiven⟩
    exact hrefuses m₀ hgiven
  operand := by
    intro given m a h ha hroom hvalue
    rw [read_concat h, takeBehind_operand ha, bind_eq_ok_iff]
    refine ⟨m.addOperand a, takeOperand_eq_ok_iff.mpr ⟨hroom, rfl⟩, settle_eq_ok_iff.mpr ⟨?_, rfl⟩⟩
    refine List.forall_mem_append.mpr ⟨(read_eq_ok_iff.mp h).2, ?_⟩
    simpa using hvalue
  operand_surplus := by
    intro given m a h ha hfull m' hread
    rw [read_concat h, takeBehind_operand ha] at hread
    rcases bind_eq_ok_iff.mp hread with ⟨m₁, htake, -⟩
    exact absurd (takeOperand_eq_ok_iff.mp htake).1 (Nat.not_lt.mpr hfull)
  operand_value := by
    intro given m a h ha hvalue m' hread
    rw [read_concat h, takeBehind_operand ha] at hread
    rcases bind_eq_ok_iff.mp hread with ⟨m₁, htake, hsettle⟩
    rcases takeOperand_eq_ok_iff.mp htake with ⟨-, rfl⟩
    have haccepts := (settle_eq_ok_iff.mp hsettle).1 a (by simp [addOperand])
    rw [hvalue] at haccepts
    cases haccepts
  double_hyphen := by
    intro given m h hgiven
    rw [read_concat h, takeBehind, if_neg hgiven, takeArguments,
      Argument.of_eq_endOfFlags_iff.mpr rfl, bind_eq_ok_iff]
    exact ⟨m, rfl, settle_eq_ok_iff.mpr ⟨(read_eq_ok_iff.mp h).2, rfl⟩⟩
  flag := by
    intro given m f h hgiven hf hnew
    have haccepts := (read_eq_ok_iff.mp h).2
    rw [read_concat h, takeBehind, if_neg hgiven, takeArguments, Argument.of_eq_flag_iff.mpr hf,
      bind_eq_ok_iff]
    refine ⟨m.addFlag f, ?_, settle_eq_ok_iff.mpr ⟨haccepts, rfl⟩⟩
    exact bind_eq_ok_iff.mpr ⟨m.addFlag f, takeFlag_eq_ok_iff.mpr ⟨haccepts, hnew, rfl⟩, rfl⟩
  flag_repeated := by
    intro given m f h hgiven hf hold m' hread
    rw [read_concat h, takeBehind, if_neg hgiven, takeArguments, Argument.of_eq_flag_iff.mpr hf]
      at hread
    rcases bind_eq_ok_iff.mp hread with ⟨m₁, htake, -⟩
    rcases bind_eq_ok_iff.mp htake with ⟨m₂, hflag, -⟩
    exact (takeFlag_eq_ok_iff.mp hflag).2.1 hold
  other := by
    intro given m a h hgiven hoperand hend hflag m' hread
    rw [read_concat h, takeBehind, if_neg hgiven, takeArguments] at hread
    rcases bind_eq_ok_iff.mp hread with ⟨m₁, htake, -⟩
    cases hshape : Argument.of d a with
    | operand => exact hoperand (Argument.of_eq_operand_iff.mp hshape)
    | endOfFlags => exact hend (Argument.of_eq_endOfFlags_iff.mp hshape)
    | flag => exact hflag (Argument.of_eq_flag_iff.mp hshape)
    | help | version =>
      rw [hshape] at htake
      rcases bind_eq_ok_iff.mp htake with ⟨m₂, -, hstop⟩
      cases hstop
    | valued | unknown =>
      rw [hshape] at htake
      cases htake

end Matches

end MonkeyTokens
