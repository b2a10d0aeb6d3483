/-! Characters of texts.  A text may hold surrogates that are no halves of a pair, though nothing
that is sent can. -/

namespace SenderPolicy

/-- A code point: a Unicode scalar value, or one of the 2048 surrogates. -/
inductive Character
  | scalar (c : Char)
  | surrogate (index : Fin 2048)
  deriving DecidableEq, Repr

/-- A character literal stands for its scalar value. -/
instance : Coe Char Character := ⟨.scalar⟩

namespace Character

def toNat : Character → Nat
  | scalar c => c.toNat
  | surrogate index => 0xd800 + index

def scalar? : Character → Option Char
  | scalar c => some c
  | surrogate _ => none

/-- Whether a character is a scalar value with a property. -/
def satisfies (p : Char → Bool) : Character → Bool
  | scalar c => p c
  | surrogate _ => false

def isScalar (c : Character) : Bool := c.satisfies fun _ => true

def isDigit (c : Character) : Bool := c.satisfies Char.isDigit

def isUpper (c : Character) : Bool := c.satisfies Char.isUpper

def isAlpha (c : Character) : Bool := c.satisfies Char.isAlpha

def isAlphanum (c : Character) : Bool := c.satisfies Char.isAlphanum

/-- The lower case of a letter of ASCII. -/
def toLower : Character → Character
  | scalar c => scalar c.toLower
  | surrogate index => surrogate index

/-- The upper case of a letter of ASCII. -/
def toUpper : Character → Character
  | scalar c => scalar c.toUpper
  | surrogate index => surrogate index

/-- Characters have the order of their code points. -/
instance : LE Character := ⟨fun c d => c.toNat ≤ d.toNat⟩

instance (c d : Character) : Decidable (c ≤ d) := inferInstanceAs (Decidable (c.toNat ≤ d.toNat))

variable (c : Char)

@[simp] theorem toNat_scalar : (scalar c).toNat = c.toNat := rfl

@[simp] theorem isScalar_scalar : (scalar c).isScalar = true := rfl

@[simp] theorem isDigit_scalar : (scalar c).isDigit = c.isDigit := rfl

@[simp] theorem isUpper_scalar : (scalar c).isUpper = c.isUpper := rfl

@[simp] theorem isAlpha_scalar : (scalar c).isAlpha = c.isAlpha := rfl

@[simp] theorem isAlphanum_scalar : (scalar c).isAlphanum = c.isAlphanum := rfl

@[simp] theorem toLower_scalar : (scalar c).toLower = scalar c.toLower := rfl

@[simp] theorem toUpper_scalar : (scalar c).toUpper = scalar c.toUpper := rfl

variable {c d : Character}

theorem toNat_inj : c.toNat = d.toNat ↔ c = d := by
  refine ⟨fun h => ?_, congrArg toNat⟩
  match c, d with
  | scalar c, scalar d => exact congrArg scalar (Char.toNat_inj.1 h)
  | surrogate i, surrogate j => exact congrArg surrogate (Fin.ext (Nat.add_left_cancel h))
  | scalar c, surrogate i =>
    have := c.valid
    have := i.isLt
    simp only [toNat, Char.toNat, UInt32.isValidChar, Nat.isValidChar] at *
    omega
  | surrogate i, scalar c =>
    have := c.valid
    have := i.isLt
    simp only [toNat, Char.toNat, UInt32.isValidChar, Nat.isValidChar] at *
    omega

theorem isDigit_iff : c.isDigit ↔ 48 ≤ c.toNat ∧ c.toNat ≤ 57 := by
  cases c with
  | scalar c =>
    simp only [isDigit, satisfies, Char.isDigit, Bool.and_eq_true, decide_eq_true_eq, ge_iff_le,
      UInt32.le_iff_toNat_le]
    exact Iff.rfl
  | surrogate index => simp [isDigit, satisfies, toNat]; omega

theorem le_antisymm (h : c ≤ d) (h' : d ≤ c) : c = d :=
  toNat_inj.1 (Nat.le_antisymm h h')

theorem le_refl (c : Character) : c ≤ c := Nat.le_refl _

end Character

end SenderPolicy
