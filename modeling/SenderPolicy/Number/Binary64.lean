/-! Numbers of the binary64 format: the rounding of exact numbers to them, their sums and their
order. -/

namespace SenderPolicy

/-- A binary64 number.  A finite one is `significand * 2 ^ exponent` with its sign, where the
significand has at most 53 bits, and fewer only at the least exponent, `-1074`. -/
inductive Binary64
  | finite (negative : Bool) (significand : Nat) (exponent : Int)
  | infinite (negative : Bool)
  | nan
  deriving DecidableEq, Repr

namespace Binary64

/-- The least significand of 53 bits, `2 ^ 52`. -/
def leastNormal : Nat := 0x10000000000000

def twoPow (k : Int) : Rat :=
  if 0 ≤ k then (Nat.pow 2 k.toNat : Rat) else 1 / (Nat.pow 2 (-k).toNat : Rat)

def tenPow (k : Int) : Rat :=
  if 0 ≤ k then (Nat.pow 10 k.toNat : Rat) else 1 / (Nat.pow 10 (-k).toNat : Rat)

/-- The integer nearest to a number; of two that are equally near, the even one. -/
def roundEven (r : Rat) : Int :=
  let q := r.floor
  let rest := r - q
  if rest < 1 / 2 then q
  else if 1 / 2 < rest then q + 1
  else if q % 2 = 0 then q else q + 1

/-- The least exponent at which a positive number has a significand of 53 bits, but no less than
`-1074`. -/
def exponentOf (r : Rat) : Int :=
  let guess : Int := Nat.log2 r.num.natAbs - Nat.log2 r.den - 52
  let exact := if r < twoPow (guess + 52) then guess - 1 else guess
  max exact (-1074)

/-- The binary64 number nearest to `r`, a number that is not negative, with the given sign.  Beyond
the greatest finite number, that is an infinity. -/
def ofMagnitude (negative : Bool) (r : Rat) : Binary64 :=
  if r = 0 then .finite negative 0 (-1074)
  else
    let e := exponentOf r
    let m := (roundEven (r / twoPow e)).toNat
    let (m, e) := if m = 2 * leastNormal then (leastNormal, e + 1) else (m, e)
    if 971 < e then .infinite negative else .finite negative m e

/-- Whether an integer is less than halfway from the greatest finite number to `2 ^ 1024`, so that
the number nearest to it is finite. -/
def isInRange (n : Int) : Bool := n.natAbs < Nat.pow 2 1024 - Nat.pow 2 970

def ofRat (r : Rat) : Binary64 := ofMagnitude (r < 0) (if r < 0 then -r else r)

def ofInt (n : Int) : Binary64 := ofRat n

def isZero : Binary64 → Bool
  | .finite _ m _ => m == 0
  | _ => false

/-- The exact value of a finite number, by its parts. -/
def exact (negative : Bool) (significand : Nat) (exponent : Int) : Rat :=
  (if negative then -1 else 1) * (significand : Rat) * twoPow exponent

def toRat? : Binary64 → Option Rat
  | .finite negative m e => some (exact negative m e)
  | _ => none

/-- The sum of two numbers, rounded to the nearest number.  A sum of zero is negative only if both
numbers are; infinities of both signs have no sum. -/
def add : Binary64 → Binary64 → Binary64
  | .finite s m e, .finite t n f =>
    let sum := exact s m e + exact t n f
    if sum = 0 then .finite (s && t) 0 (-1074) else ofRat sum
  | .infinite s, .infinite t => if s = t then .infinite s else .nan
  | .infinite s, .finite _ _ _ | .finite _ _ _, .infinite s => .infinite s
  | .nan, _ | _, .nan => .nan

instance : Add Binary64 := ⟨add⟩

/-- Whether a number is at most another one.  What is not a number is at most nothing, and nothing
is at most that. -/
def atMost : Binary64 → Binary64 → Bool
  | .finite s m e, .finite t n f => exact s m e ≤ exact t n f
  | .infinite s, .infinite t => s || !t
  | .infinite s, .finite _ _ _ => s
  | .finite _ _ _, .infinite t => !t
  | .nan, _ | _, .nan => false

end Binary64

end SenderPolicy
