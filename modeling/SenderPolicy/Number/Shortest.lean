import SenderPolicy.Number.Binary64
import SenderPolicy.Text.Basic

/-! The shortest decimal text of a binary64 number: the fewest significant digits that read back as
the number, and of those the nearest to it. -/

namespace SenderPolicy.Binary64

/-- The digits of a decimal, and the place of its point: the decimal is `0.d₁d₂… * 10 ^ point`. -/
structure Digits where
  digits : Text
  point : Int

/-- The power of ten just above a positive number: the least `p` with `r < 10 ^ p`. -/
def decimalPoint (r : Rat) : Int :=
  let whole := r.floor.toNat
  if whole = 0 then
    let inverse := (1 / r).ceil.toNat
    if inverse ≤ 1 then 1 else 1 - ((Nat.toDigits 10 (inverse - 1)).length : Int)
  else (Nat.toDigits 10 whole).length

/-- The numbers between `low` and `high` round to the number in question; the ends do if `closed`
says so. -/
def within (closed : Bool) (low high r : Rat) : Bool :=
  if closed then low ≤ r && r ≤ high else low < r && r < high

/-- The multiple of `unit` that is nearest to `r` among its two neighbours between `low` and
`high`; the even one, if both are equally near. -/
def neighbour? (closed : Bool) (low high unit r : Rat) : Option Nat :=
  let below := (r / unit).floor.toNat
  let above := below + 1
  match within closed low high (below * unit), within closed low high (above * unit) with
  | true, true =>
    let gap := r - below * unit
    if gap < unit / 2 then some below
    else if unit / 2 < gap then some above
    else some (if below % 2 = 0 then below else above)
  | true, false => some below
  | false, true => some above
  | false, false => none

/-- The significant digits of a decimal `n * 10 ^ scale`: zeros at the end do not count. -/
def Digits.ofScaled (n : Nat) (scale : Int) : Digits where
  digits := Text.dropTrailing (· == '0') (Text.ofNat n)
  point := (Text.ofNat n).length + scale

/-- The shortest digits of `m * 2 ^ e`, where `m` is positive. -/
def shortestDigits (m : Nat) (e : Int) : Digits :=
  let unit := twoPow (e - 2)
  let value := (4 * m : Nat) * unit
  let low := value - (if m = leastNormal ∧ -1074 < e then 1 else 2) * unit
  let high := value + 2 * unit
  let point := decimalPoint value
  let attempt (count : Nat) : Option Digits :=
    let scale := point - (count + 1 : Nat)
    (neighbour? (m % 2 = 0) low high (tenPow scale) value).map (Digits.ofScaled · scale)
  ((List.range 17).findSome? attempt).getD (Digits.ofScaled m 0)

/-- Digits in positional notation, with a digit on either side of the point. -/
def positional (d : Digits) : Text :=
  if d.point ≤ 0 then "0." ++ Text.zeros (-d.point).toNat ++ d.digits
  else
    let whole := d.digits.take d.point.toNat
    let fraction := d.digits.drop d.point.toNat
    whole ++ Text.zeros (d.point.toNat - whole.length) ++ "." ++
      (if fraction = [] then Text.zeros 1 else fraction)

def scientific (d : Digits) : Text :=
  let exponent := d.point - 1
  let digits := Text.ofNat exponent.natAbs
  d.digits.take 1 ++ (if d.digits.length ≤ 1 then [] else .scalar '.' :: d.digits.drop 1) ++
    (if exponent < 0 then "e-" else "e+") ++ Text.zeros (2 - digits.length) ++ digits

/-- The text of a number: positional from `0.0001` up to `10 ^ 16`, scientific elsewhere. -/
def toText : Binary64 → Text
  | .nan => "nan"
  | .infinite negative => if negative then "-inf" else "inf"
  | .finite negative m e =>
    let magnitude : Text :=
      if m = 0 then "0.0"
      else
        let d := shortestDigits m e
        if -4 < d.point ∧ d.point ≤ 16 then positional d else scientific d
    if negative then .scalar '-' :: magnitude else magnitude

end SenderPolicy.Binary64
