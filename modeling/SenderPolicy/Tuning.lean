import SenderPolicy.Settings.Basic
import SenderPolicy.Value

/-! The settings that an expander looks up at each use.  They start as settings that have been
validated, and may then be changed to values of any type; one that does not suit is found at its
use. -/

namespace SenderPolicy

/-- The settings that are looked up at each use. -/
structure Tuning where
  receivingHost : Value
  maxDomainLength : Value
  maxPointerNames : Value
  pointerCacheTtl : Value

namespace Tuning

def ofSettings (s : Settings) : Tuning where
  receivingHost := (s.receivingHost.map Value.text).getD .nothing
  maxDomainLength := .integer s.maxDomainLength
  maxPointerNames := .integer s.maxPointerNames
  pointerCacheTtl := .integer s.pointerCacheTtl

/-- Why a setting cannot be changed, or a changed one cannot be used. -/
inductive Fault
  | unknownSetting (name : Text)
  | derivedSetting (name : Text)
  | noHost (type : Text)
  | noLength (type : Text)
  | noCount
  deriving DecidableEq, Repr

def Fault.message : Fault → Text
  | .unknownSetting name => "\"Settings\" object has no field \"" ++ name ++ "\""
  | .derivedSetting name => "property '" ++ name ++ "' of 'Settings' object has no setter"
  | .noHost type => "'" ++ type ++ "' object has no attribute 'strip'"
  | .noLength type => "'>' not supported between instances of 'int' and '" ++ type ++ "'"
  | .noCount => "slice indices must be integers or None or have an __index__ method"

/-- The names of what is derived from settings, or from how they were given. -/
def derivedNames : List Text :=
  ["receiving_host_name", "use_redis", "redis_url", "model_extra", "model_fields_set",
    "__fields_set__"]

/-- The tuning with another value of a setting, which is not looked at.  Settings that are not
looked up again, and names that begin with an underscore, may be changed to no effect. -/
def change (t : Tuning) (name : Text) (value : Value) : Except Fault Tuning :=
  match Setting.ofName? name with
  | some .receivingHost => .ok { t with receivingHost := value }
  | some .maxDomainLength => .ok { t with maxDomainLength := value }
  | some .maxPointerNames => .ok { t with maxPointerNames := value }
  | some .pointerCacheTtl => .ok { t with pointerCacheTtl := value }
  | some _ => .ok t
  | none =>
    if derivedNames.contains name then .error (.derivedSetting name)
    else if name.head? = some (.scalar '_') then .ok t
    else .error (.unknownSetting name)

/-- The name of the receiving host; `unknown` where its value is void. -/
def receivingHostName (t : Tuning) : Except Fault Text :=
  match t.receivingHost with
  | .text host => .ok (Settings.hostName host)
  | v => if v.isVoid then .ok Settings.unknownHost else .error (.noHost v.typeName)

/-- The length up to which expanded domains are kept whole, if there is a bound.  A real bound
counts as the greatest integer that is not above it. -/
def domainLength? (t : Tuning) : Except Fault (Option Int) :=
  match t.maxDomainLength with
  | .integer n => .ok (some n)
  | .truth b => .ok (some (if b then 1 else 0))
  | .real r => match r with
    | .nan | .infinite false => .ok none
    | .infinite true => .ok (some (-1))
    | .finite _ _ _ => .ok (r.toRat?.map Rat.floor)
  | v => .error (.noLength v.typeName)

/-- The length up to which expanded domains are kept whole, as a text; none, if it is a number that
has too many digits to write. -/
def lengthText? (t : Tuning) : Option Text :=
  match t.maxDomainLength with
  | .integer n => Text.ofInt? n
  | v => some v.toText

theorem eq_toText_of_lengthText? {t : Tuning} {text : Text} (h : t.lengthText? = some text) :
    text = t.maxDomainLength.toText := by
  unfold lengthText? at h
  split at h
  · next n hlength =>
    rw [Text.ofInt?, Option.ite_none_right_eq_some] at h
    rw [hlength]
    exact (Option.some.inj h.2).symm
  · exact (Option.some.inj h).symm

/-- The number of pointers that are followed, if there is a bound; a negative one tells how many at
the end are not. -/
def pointerCount? (t : Tuning) : Except Fault (Option Int) :=
  match t.maxPointerNames with
  | .nothing => .ok none
  | .integer n => .ok (some n)
  | .truth b => .ok (some (if b then 1 else 0))
  | _ => .error .noCount

@[simp] theorem receivingHostName_ofSettings (s : Settings) :
    (ofSettings s).receivingHostName = .ok s.receivingHostName := by
  rcases h : s.receivingHost with _ | host <;>
    simp [receivingHostName, ofSettings, Settings.receivingHostName, h, Value.isVoid]

@[simp] theorem domainLength?_ofSettings (s : Settings) :
    (ofSettings s).domainLength? = .ok (some s.maxDomainLength) := rfl

@[simp] theorem pointerCount?_ofSettings (s : Settings) :
    (ofSettings s).pointerCount? = .ok (some s.maxPointerNames) := rfl

end Tuning

end SenderPolicy
