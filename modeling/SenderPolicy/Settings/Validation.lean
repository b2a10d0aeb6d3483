import SenderPolicy.Number.Numeral
import SenderPolicy.Settings.Basic
import SenderPolicy.Text.Case
import SenderPolicy.Value

/-! Settings from assignments and an environment.  An assignment wins over the environment, and the
environment over the default.  Names count in any case, every value has to suit the type of its
setting, and all faults are found together. -/

namespace SenderPolicy.Settings

inductive Refusal
  | extraForbidden
  | floatParsing
  | floatType
  | finiteNumber
  | intFromFloat
  | intParsing
  | intParsingSize
  | intType
  | stringType
  | stringUnicode
  deriving DecidableEq, Repr

def Refusal.name : Refusal → Text
  | .extraForbidden => "extra_forbidden"
  | .floatParsing => "float_parsing"
  | .floatType => "float_type"
  | .finiteNumber => "finite_number"
  | .intFromFloat => "int_from_float"
  | .intParsing => "int_parsing"
  | .intParsingSize => "int_parsing_size"
  | .intType => "int_type"
  | .stringType => "string_type"
  | .stringUnicode => "string_unicode"

/-- A value that is refused, by the name under which it was given. -/
structure Fault where
  setting : Text
  refusal : Refusal
  deriving DecidableEq, Repr

/-- Faults are listed by setting, and by refusal for one setting. -/
def Fault.before (f g : Fault) : Bool :=
  if f.setting = g.setting then Text.precedes f.refusal.name g.refusal.name
  else Text.precedes f.setting g.setting

structure Sources where
  environment : List (Text × Text) := []
  assignments : List (Text × Value) := []

/-- The value that a list of named values gives to a setting; of several, the first one. -/
def lookupName {α : Type} (setting : Setting) (named : List (Text × α)) : Option α :=
  (named.find? fun (name, _) => name.lower == setting.name).map (·.2)

/-- The value that is given to a setting.  Where a name is there in several cases, the first
assignment counts, and the last variable of the environment. -/
def Sources.value? (sources : Sources) (setting : Setting) : Option Value :=
  (lookupName setting sources.assignments).orElse fun _ =>
    (lookupName setting sources.environment.reverse).map .text

def readText : Value → Except Refusal Text
  | .text t => .ok t
  | _ => .error .stringType

/-- A text is itself, and nothing is a missing text. -/
def readOptionalText : Value → Except Refusal (Option Text)
  | .nothing => .ok none
  | .text t => .ok (some t)
  | _ => .error .stringType

/-- The text of a numeral, which has to hold no surrogates. -/
def numeralText (t : Text) : Except Refusal Text :=
  if t.all Character.isScalar then .ok t else .error .stringUnicode

/-- An integer is a number without a fraction, a truth value, or an integer numeral.  A real number
has to be one of 64 bits. -/
def readInteger : Value → Except Refusal Int
  | .integer n => .ok n
  | .truth b => .ok (if b then 1 else 0)
  | .real r => match r.toRat? with
    | none => .error .finiteNumber
    | some q =>
      if q.den ≠ 1 then .error .intFromFloat
      else if q.num.natAbs < 0x8000000000000000 then .ok q.num
      else .error .intParsingSize
  | .text t => do match Numeral.integer (← numeralText t) with
    | .ok n => .ok n
    | .error .malformed => .error .intParsing
    | .error .tooLong => .error .intParsingSize
  | _ => .error .intType

/-- A real number is a number, a truth value, or a real numeral; an integer has to be in range. -/
def readReal : Value → Except Refusal Binary64
  | .real r => .ok r
  | .integer n => if Binary64.isInRange n then .ok (.ofInt n) else .error .floatType
  | .truth b => .ok (.ofInt (if b then 1 else 0))
  | .text t => do match Numeral.real? (← numeralText t) with
    | some r => .ok r
    | none => .error .floatParsing
  | _ => .error .floatType

/-- The value of a setting, or its default together with a fault. -/
def field {α : Type} (sources : Sources) (read : Value → Except Refusal α) (setting : Setting)
    (default : α) : StateM (List Fault) α :=
  match sources.value? setting with
  | none => pure default
  | some v => match read v with
    | .ok a => pure a
    | .error refusal => do
      modify (⟨setting.name, refusal⟩ :: ·)
      pure default

/-- All settings, with the faults of the values that are refused. -/
def collect (sources : Sources) : StateM (List Fault) Settings := do
  let defaults : Settings := {}
  let text := field sources readText
  let optional := field sources readOptionalText
  let integer := field sources readInteger
  let real := field sources readReal
  return {
    receivingHost := ← optional .receivingHost defaults.receivingHost
    maxDomainLength := ← integer .maxDomainLength defaults.maxDomainLength
    maxPointerNames := ← integer .maxPointerNames defaults.maxPointerNames
    dnsTimeout := ← real .dnsTimeout defaults.dnsTimeout
    dnsLifetime := ← real .dnsLifetime defaults.dnsLifetime
    pointerCacheTtl := ← integer .pointerCacheTtl defaults.pointerCacheTtl
    cacheNamespace := ← text .cacheNamespace defaults.cacheNamespace
    redisHost := ← optional .redisHost defaults.redisHost
    redisPort := ← integer .redisPort defaults.redisPort
    redisDatabase := ← integer .redisDatabase defaults.redisDatabase
    reportDsn := ← optional .reportDsn defaults.reportDsn
    reportEnvironment := ← text .reportEnvironment defaults.reportEnvironment
    reportSampleRate := ← real .reportSampleRate defaults.reportSampleRate
    logLevel := ← text .logLevel defaults.logLevel }

/-- The faults of assignments that name no setting. -/
def strayAssignments (sources : Sources) : List Fault :=
  (sources.assignments.filter fun (name, _) => (Setting.ofName? name.lower).isNone).map
    fun (name, _) => ⟨name, .extraForbidden⟩

/-- The settings of the sources, or all of their faults in order. -/
def validate (sources : Sources) : Except (List Fault) Settings :=
  let (settings, faults) := (collect sources).run (strayAssignments sources)
  if faults = [] then .ok settings else .error (faults.mergeSort Fault.before)

end SenderPolicy.Settings
