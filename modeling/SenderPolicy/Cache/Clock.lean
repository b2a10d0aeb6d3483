import SenderPolicy.Value

/-! The clock of a cache.  It counts seconds in binary64 numbers, so times far from zero are coarse:
a sum of a time and a few seconds may be the same time. -/

namespace SenderPolicy

/-- Why a value tells no number of seconds. -/
inductive DurationFault
  | noNumber (type : Text)
  | tooLong
  deriving DecidableEq, Repr

def DurationFault.message : DurationFault → Text
  | .noNumber type => "unsupported operand type(s) for +: 'float' and '" ++ type ++ "'"
  | .tooLong => "int too large to convert to float"

namespace Clock

def zero : Binary64 := .ofInt 0

def seconds : Value → Except DurationFault Binary64
  | .truth b => .ok (.ofInt (if b then 1 else 0))
  | .integer n => if Binary64.isInRange n then .ok (.ofInt n) else .error .tooLong
  | .real r => .ok r
  | v => .error (.noNumber v.typeName)

def after (now : Binary64) (duration : Value) : Except DurationFault Binary64 :=
  (seconds duration).map (now + ·)

/-- The length of a tick, a billionth of a second. -/
def tick : Binary64 := .ofRat (1 / 1000000000)

/-- A deadline has passed once it is less than a tick ahead, so that a deadline that is reached by
several steps of the clock is not missed by what these are rounded. -/
def hasPassed (deadline now : Binary64) : Bool := !(now + tick).atMost deadline

theorem after_integer {n : Int} (now : Binary64) (h : Binary64.isInRange n) :
    after now (.integer n) = .ok (now + .ofInt n) := by
  simp [after, seconds, h, Except.map]

end Clock

end SenderPolicy
