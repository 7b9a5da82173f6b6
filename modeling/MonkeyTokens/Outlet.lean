/-!
# Outlets

An outlet takes elements in the order in which they come: the bytes of a text, or
diagnostics.  An outlet with bounded room takes as many as still fit, and then refuses
the rest with an error of its own.

Main results:

- Theorem `Outlet.put_unbounded`: an outlet without bound takes everything.
- Theorem `Outlet.put_append`: elements put one after the other are put like all at once.
-/

namespace MonkeyTokens

/-- What an outlet answers when it refuses something. -/
structure WriteError where
  message : String
  deriving DecidableEq, Repr

/-- The error of an outlet of which nothing else is known. -/
def WriteError.limitReached : WriteError where
  message := "limit reached"

/-- The elements taken so far, how many more can be taken, and the error with which the
rest is refused; without a bound there is always room. -/
structure Outlet (α : Type) where
  room? : Option Nat
  refusal : WriteError
  taken : Array α
  deriving DecidableEq, Repr

namespace Outlet

variable {α : Type}

/-- An outlet that takes everything, and has taken nothing yet. -/
def unbounded : Outlet α where
  room? := none
  refusal := .limitReached
  taken := #[]

/-- The outlet once it has taken some more elements. -/
def holding (o : Outlet α) (elements : List α) : Outlet α :=
  { o with taken := o.taken ++ elements }

/-- Puts some elements: those are taken that fit, and it fails if these are not all. -/
def put (o : Outlet α) (elements : List α) : Except WriteError Unit × Outlet α :=
  match o.room? with
  | none => (.ok (), o.holding elements)
  | some room =>
    let after := { o.holding (elements.take room) with room? := some (room - elements.length) }
    (if elements.length ≤ room then .ok () else .error o.refusal, after)

@[simp]
theorem room?_unbounded : (unbounded : Outlet α).room? = none :=
  rfl

@[simp]
theorem toList_taken_holding (o : Outlet α) (elements : List α) :
    (o.holding elements).taken.toList = o.taken.toList ++ elements := by
  simp [holding]

@[simp]
theorem holding_nil (o : Outlet α) : o.holding [] = o := by
  simp [holding]

theorem holding_holding (o : Outlet α) (a b : List α) :
    (o.holding a).holding b = o.holding (a ++ b) := by
  simp [holding, ← Array.toList_inj]

/-- An outlet without bound takes everything. -/
theorem put_unbounded {o : Outlet α} (h : o.room? = none) (elements : List α) :
    o.put elements = (.ok (), o.holding elements) := by
  simp [put, h]

/-- Putting nothing has no effect and never fails. -/
theorem put_nil (o : Outlet α) : o.put [] = (.ok (), o) := by
  rcases o with ⟨room?, refusal, taken⟩
  cases room? <;> simp [put, holding]

/-- Elements put one after the other are put like all at once. -/
theorem put_append (o : Outlet α) (a b : List α) :
    o.put (a ++ b) =
      match o.put a with
      | (.ok (), o) => o.put b
      | (.error e, o) => (.error e, o) := by
  rcases o with ⟨room?, refusal, taken⟩
  cases room? with
  | none => simp [put, holding, ← Array.toList_inj]
  | some room =>
    simp only [put, holding, List.length_append, List.take_append]
    by_cases hfits : a.length ≤ room
    · have hall : a.length + b.length ≤ room ↔ b.length ≤ room - a.length := by
        omega
      simp only [hfits, hall, if_true, List.take_of_length_le, Nat.sub_add_eq]
      simp [← Array.toList_inj]
    · have hall : ¬ a.length + b.length ≤ room := by
        omega
      have hfull : room - a.length = 0 := by
        omega
      simp only [hfits, hall, if_false, hfull, Nat.sub_add_eq, Nat.zero_sub, List.take_zero,
        List.append_nil]

end Outlet

end MonkeyTokens
