import MonkeyTokens.Utf8

/-!
# Arguments

A program declares the flags and the operands that it may be started with, and a reader
takes the arguments apart accordingly.  The reader is a part of the surroundings: nothing
is known of it but the rules by which it is documented to read, and these are stated here
as what one more argument behind others changes.

What a system passes as arguments need not be text.  Only the bytes of an argument are
asked for, and whether it is one of those that can be written as texts.
-/

namespace MonkeyTokens

/-! ## Texts of a system -/

/-- What a system takes for texts.  All texts are among them, and bytes that are no text
may be, too. -/
class SystemText (α : Type) [DecidableEq α] where
  bytes : α → List UInt8
  ofText : String → α
  bytes_ofText : ∀ text, bytes (ofText text) = Utf8.encode text

instance : SystemText String where
  bytes := Utf8.encode
  ofText := id
  bytes_ofText _ := rfl

instance : SystemText (List UInt8) where
  bytes := id
  ofText := Utf8.encode
  bytes_ofText _ := rfl

/-- The byte with which flags begin. -/
def hyphen : UInt8 :=
  45

/-! ## Declarations and what is found -/

open SystemText

variable {α : Type} [DecidableEq α] [SystemText α]

/-- The argument that ends the flags. -/
def doubleHyphen : α :=
  ofText "--"

/-- What a program declares about its arguments: the flags, which begin with two hyphens
and may be given once each, the number of operands that may be given, and the values that
these may have. -/
structure Declaration (α : Type) [DecidableEq α] [SystemText α] where
  flags : List α
  operandLimit : Nat
  accepts : α → Bool
  flags_long : ∀ flag ∈ flags, flag ≠ doubleHyphen ∧ [hyphen, hyphen] <+: bytes flag

/-- The operands and the flags that were found among some arguments, in their order. -/
structure Matches (α : Type) where
  operands : List α
  flags : List α
  deriving DecidableEq, Repr

namespace Matches

/-- Neither operands nor flags. -/
def empty : Matches α where
  operands := []
  flags := []

/-- One more operand is found. -/
def addOperand (m : Matches α) (operand : α) : Matches α :=
  { m with operands := m.operands ++ [operand] }

/-- One more flag is found. -/
def addFlag (m : Matches α) (flag : α) : Matches α :=
  { m with flags := m.flags ++ [flag] }

end Matches

/-- An operand is a lone hyphen, or does not begin with one. -/
def IsOperand (argument : α) : Prop :=
  bytes argument = [hyphen] ∨ (bytes argument).head? ≠ some hyphen

instance (argument : α) : Decidable (IsOperand argument) :=
  inferInstanceAs (Decidable (_ ∨ _))

/-! ## Readers -/

/-- What takes arguments apart, or fails with a reason of its own. -/
abbrev ArgumentReader (α ε : Type) := List α → Except ε (Matches α)

/-- The reader finds nothing in the arguments, but fails, if only since they ask for help. -/
def ArgumentReader.Refuses {ε : Type} (read : ArgumentReader α ε) (arguments : List α) : Prop :=
  ∀ m, read arguments ≠ .ok m

/-- Behind some arguments, another is an operand if it has the shape of one, or if a double
hyphen is among those before it. -/
def OperandBehind (given : List α) (argument : α) : Prop :=
  doubleHyphen ∈ given ∨ IsOperand argument

/-- The rules by which a reader takes the arguments of a declared program apart. -/
structure Conforms {ε : Type} (d : Declaration α) (read : ArgumentReader α ε) : Prop where
  /-- Nothing is required: without arguments, nothing is found. -/
  nil : read [] = .ok .empty
  /-- Arguments are read from left to right.  The first that fails, or asks for help or the
  version, decides, so that nothing behind it makes it good. -/
  refuses_append : ∀ {given}, read.Refuses given → ∀ rest, read.Refuses (given ++ rest)
  /-- An operand is found if there may be one more. -/
  operand : ∀ {given m a}, read given = .ok m → OperandBehind given a →
    m.operands.length < d.operandLimit → d.accepts a = true →
      read (given ++ [a]) = .ok (m.addOperand a)
  /-- An operand is refused where no more may be given. -/
  operand_surplus : ∀ {given m a}, read given = .ok m → OperandBehind given a →
    d.operandLimit ≤ m.operands.length → read.Refuses (given ++ [a])
  /-- An operand whose value is not accepted is refused, at the end if not before. -/
  operand_value : ∀ {given m a}, read given = .ok m → OperandBehind given a →
    d.accepts a = false → read.Refuses (given ++ [a])
  /-- The first double hyphen is no argument of its own; it makes operands of all behind it. -/
  double_hyphen : ∀ {given m}, read given = .ok m → doubleHyphen ∉ given →
    read (given ++ [doubleHyphen]) = .ok m
  /-- A declared flag is found. -/
  flag : ∀ {given m f}, read given = .ok m → doubleHyphen ∉ given → f ∈ d.flags → f ∉ m.flags →
    read (given ++ [f]) = .ok (m.addFlag f)
  /-- A flag that was found already is refused. -/
  flag_repeated : ∀ {given m f}, read given = .ok m → doubleHyphen ∉ given → f ∈ d.flags →
    f ∈ m.flags → read.Refuses (given ++ [f])
  /-- Whatever else begins with a hyphen asks for help or the version, or is an error: a
  flag that was not declared, or a flag with a value, which none takes. -/
  other : ∀ {given m a}, read given = .ok m → doubleHyphen ∉ given → ¬ IsOperand a →
    a ≠ doubleHyphen → a ∉ d.flags → read.Refuses (given ++ [a])

end MonkeyTokens
