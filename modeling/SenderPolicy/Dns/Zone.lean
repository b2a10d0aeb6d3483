import SenderPolicy.Dns.Name
import SenderPolicy.Value

/-! The data of the domain name system, as far as lookups see it: an outcome for every question. -/

namespace SenderPolicy

inductive RecordType
  | pointer
  | ipv4Host
  | ipv6Host
  | text
  deriving DecidableEq, Repr

def RecordType.name : RecordType → Text
  | .pointer => "PTR"
  | .ipv4Host => "A"
  | .ipv6Host => "AAAA"
  | .text => "TXT"

structure Question where
  type : RecordType
  name : Text
  deriving DecidableEq, Repr

def Question.toText (q : Question) : Text := q.type.name ++ .scalar ' ' :: q.name

/-- Why a lookup fails that should have had an answer. -/
inductive ServerFault
  | noServers
  | badName (fault : NameFault)
  | other (message : Text)
  deriving DecidableEq, Repr

/-- What becomes of a lookup: the name does not exist, it has no records of the type, no answer
comes in time, or the lookup fails in some other way. -/
inductive Outcome (α : Type)
  | answer (records : α)
  | absent
  | noRecords
  | timeout
  | failed (fault : ServerFault)
  deriving DecidableEq, Repr

/-- The outcome of a lookup that finds names by their labels. -/
def Outcome.ofNames (names : List DomainName) : Outcome (List DomainName) :=
  match names.findSome? DomainName.fault? with
  | none => .answer names
  | some fault => .failed (.badName fault)

/-- Records with what an answer gives as the number of seconds for which they hold, where that can
be read.  It is handed on to callers and not looked at. -/
structure RecordSet (α : Type) where
  records : List α
  ttl : Option Value

/-- The outcome of every lookup, by record type and name. -/
structure Zone where
  pointers : Text → Outcome (List DomainName)
  ipv4Hosts : Text → Outcome (RecordSet Text)
  ipv6Hosts : Text → Outcome (RecordSet Text)
  texts : Text → Outcome (RecordSet (List Bytes))

namespace Zone

/-- The zone in which no name exists. -/
def empty : Zone where
  pointers _ := .absent
  ipv4Hosts _ := .absent
  ipv6Hosts _ := .absent
  texts _ := .absent

/-- A lookup table with another outcome for one name. -/
def replace {α : Type} (table : Text → Outcome α) (name : Text) (outcome : Outcome α) :
    Text → Outcome α :=
  fun n => if n = name then outcome else table n

/-- The outcome for one question. -/
inductive Entry
  | pointers (name : Text) (outcome : Outcome (List DomainName))
  | ipv4Hosts (name : Text) (outcome : Outcome (RecordSet Text))
  | ipv6Hosts (name : Text) (outcome : Outcome (RecordSet Text))
  | texts (name : Text) (outcome : Outcome (RecordSet (List Bytes)))

def set (zone : Zone) : Entry → Zone
  | .pointers name outcome => { zone with pointers := replace zone.pointers name outcome }
  | .ipv4Hosts name outcome => { zone with ipv4Hosts := replace zone.ipv4Hosts name outcome }
  | .ipv6Hosts name outcome => { zone with ipv6Hosts := replace zone.ipv6Hosts name outcome }
  | .texts name outcome => { zone with texts := replace zone.texts name outcome }

/-- A zone with the outcomes of `entries`, the later ones over the earlier ones. -/
def merge (zone : Zone) (entries : List Entry) : Zone := entries.foldl set zone

end Zone

end SenderPolicy
