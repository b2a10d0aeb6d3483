import SenderPolicy.Number.Binary64
import SenderPolicy.Text.Basic
import SenderPolicy.Text.Blank

/-! The numerals that settings may be written in.  White space around a numeral does not count, and
single underscores may stand inside of it; a real numeral has one or the other. -/

namespace SenderPolicy.Numeral

/-- The value of a run of decimal digits. -/
def valueOf (digits : Text) : Nat := digits.foldl (fun n c => n * 10 + (c.toNat - '0'.toNat)) 0

/-- A sign at the front of a text, and the text after it; `true` is a minus sign. -/
def sign : Text → Bool × Text
  | .scalar '-' :: t => (true, t)
  | .scalar '+' :: t => (false, t)
  | t => (false, t)

def isDigits (t : Text) : Bool := t != [] && t.all Character.isDigit

/-- The text without its underscores, if each of them stands alone and none is at an end. -/
def withoutUnderscores? (t : Text) : Option Text :=
  let parts := t.splitOn (.scalar '_')
  if parts.length = 1 ∨ parts.all (· != []) then some parts.flatten else none

inductive IntegerFault
  | malformed
  | tooLong
  deriving DecidableEq, Repr

/-- The number of digits up to which an integer numeral is read. -/
def integerDigitLimit : Nat := 4300

/-- The rest of a numeral after the zeros at its front, of which `last` is the latest.  Underscores
may stand between these, and a minus sign may follow them.  Where nothing follows, or the point, the
latest one is kept. -/
def afterZeros? (last : Character) : Text → Option Text
  | [] => some [last]
  | c :: t =>
    if c = '0' ∨ c = '_' then afterZeros? c t
    else if c = '.' then some (last :: c :: t)
    else if c = '-' ∨ c.isDigit then some (c :: t)
    else none

/-- A numeral without the zeros at its front; it has to begin with a digit. -/
def withoutLeadingZeros? : Text → Option Text
  | [] => none
  | c :: t => if c = '0' then afterZeros? c t else if c.isDigit then some (c :: t) else none

/-- The digits before the point of a numeral whose digits after it, if it has a point, are one or
more zeros. -/
def wholePart? (t : Text) : Option Text :=
  let (whole, rest) := t.span fun c : Character => c != '.'
  match rest with
  | [] => some whole
  | _ :: zeros =>
    if zeros != [] && zeros.all (fun c : Character => c == '0') then some whole else none

def hasLeadingZero : Text → Bool
  | .scalar '0' :: c :: _ => c.isDigit
  | _ => false

/-- The value of digits that may follow a minus sign. -/
def plainInteger (t : Text) : Except IntegerFault Int :=
  let (negative, digits) := match t with
    | .scalar '-' :: digits => (true, digits)
    | digits => (false, digits)
  if hasLeadingZero digits then .error .malformed
  else if integerDigitLimit < (digits.takeWhile Character.isDigit).length then .error .tooLong
  else if isDigits digits then
    .ok (if negative then -(valueOf digits : Int) else (valueOf digits : Int))
  else .error .malformed

/-- A numeral in its plain form: without the white space around it, a plus sign, the zeros at its
front, a fraction of zeros, and underscores.  Zeros go before anything else is looked at, the sign
excepted, so that a minus sign may also stand after these. -/
def plainForm? (t : Text) : Option Text :=
  let (negative, magnitude) := sign (Text.trim Text.isWhiteSpace t)
  let front : Text := if negative then ['-'] else []
  ((withoutLeadingZeros? magnitude).map (front ++ ·)).bind fun t =>
    (wholePart? t).bind withoutUnderscores?

/-- The value of an integer numeral.  A text is first read as it stands, and is too long only then;
if it is malformed, its plain form is read. -/
def integer (t : Text) : Except IntegerFault Int :=
  match plainInteger t with
  | .error .malformed =>
    (((plainForm? t).map plainInteger).getD (.error .malformed)).mapError fun _ => .malformed
  | result => result

/-- The value of an optional exponent: nothing, or the letter E, a sign and digits. -/
def exponent? : Text → Option Int
  | [] => some 0
  | c :: t =>
    let (negative, digits) := sign t
    if c.toLower = 'e' ∧ isDigits digits then
      some (if negative then -(valueOf digits : Int) else (valueOf digits : Int))
    else none

/-- The number nearest to `n * 10 ^ scale`.  Scales at which it is certain to be an infinity or
zero are not worked out. -/
def scaled (negative : Bool) (n : Nat) (scale : Int) : Binary64 :=
  let magnitude := (Nat.toDigits 10 n).length + scale
  if n = 0 ∨ magnitude < -330 then .finite negative 0 (-1074)
  else if 330 < magnitude then .infinite negative
  else .ofMagnitude negative (n * Binary64.tenPow scale)

/-- The value of an unsigned decimal: digits, a point with more digits, and an exponent, where one
digit is needed before the exponent. -/
def decimal? (negative : Bool) (t : Text) : Option Binary64 :=
  let (whole, rest) := t.span Character.isDigit
  let (fraction, rest) := match rest with
    | .scalar '.' :: more => more.span Character.isDigit
    | _ => ([], rest)
  if whole = [] ∧ fraction = [] then none
  else (exponent? rest).map fun exponent =>
    scaled negative (valueOf (whole ++ fraction)) (exponent - fraction.length)

/-- The value of a real numeral without underscores: a decimal, or the name of an infinity or of
the number that is none, in any case. -/
def plainReal? (t : Text) : Option Binary64 :=
  let (negative, magnitude) := sign t
  let name := magnitude.map Character.toLower
  if name = ("inf" : Text) ∨ name = ("infinity" : Text) then some (.infinite negative)
  else if name = ("nan" : Text) then some .nan
  else decimal? negative magnitude

/-- The value of a real numeral.  It has either white space around it or underscores inside. -/
def real? (t : Text) : Option Binary64 :=
  (plainReal? (Text.trim Text.isWhiteSpace t)).orElse fun _ =>
    (withoutUnderscores? t).bind plainReal?

end SenderPolicy.Numeral
