import SenderPolicy.Address.Reading

/-! The session of one check: the values that macro letters stand for.  A check that moves to
another domain derives a new session and edits none. -/

namespace SenderPolicy

/-- The bindings of one check. -/
structure Session where
  sender : Text
  currentDomain : Text
  client : Address
  heloDomain : Option Text
  receivingHost : Option Text
  timestamp : Int
  deriving DecidableEq, Repr

/-- A time in seconds, as callers give it: a number, infinity, or what is not a number. -/
inductive ClockTime
  | seconds (s : Rat)
  | infinite
  | undefined
  deriving DecidableEq, Repr

/-- A client, as callers give it: by a text, or by an address that has been read before. -/
inductive ClientSource
  | text (t : Text)
  | address (a : Address)
  deriving DecidableEq, Repr

instance : Coe Text ClientSource := ⟨.text⟩

structure CheckRequest where
  sender : Text
  currentDomain : Text
  client : ClientSource
  heloDomain : Option Text := none
  receivingHost : Option Text := none
  /-- The time of the check, if it is not the present. -/
  time : Option ClockTime := none

inductive RequestFault
  | noDomainPart (sender : Text)
  | infiniteTime
  | undefinedTime
  | badAddress (text : Text)
  deriving DecidableEq, Repr

def RequestFault.message : RequestFault → Text
  | .noDomainPart sender => "Sender " ++ sender.quoted ++ " has no domain part"
  | .infiniteTime => "cannot convert float infinity to integer"
  | .undefinedTime => "cannot convert float NaN to integer"
  | .badAddress text => text.quoted ++ " does not appear to be an IPv4 or IPv6 address"

namespace Session

def localPart (s : Session) : Text := s.sender.beforeLast '@'

def senderDomain (s : Session) : Text := s.sender.afterLast '@'

def defaultLocalPart : Text := "postmaster"

def completeSender (sender : Text) : Text :=
  if sender.beforeLast '@' = [] then defaultLocalPart ++ .scalar '@' :: sender.afterLast '@'
  else sender

/-- The address of a client, or a fault that shows the text without the white space around it. -/
def clientAddress (text : Text) : Except RequestFault Address :=
  match Address.ofClient? text with
  | some a => .ok a
  | none => .error (.badAddress (Text.trim Text.isBlank text))

/-- The address that callers mean.  A mapped IPv4 address is the IPv4 address itself. -/
def clientOf : ClientSource → Except RequestFault Address
  | .text t => clientAddress t
  | .address a => .ok a.unmapped

/-- A number of seconds without its fraction. -/
def wholeSeconds (seconds : Rat) : Int := seconds.num.tdiv seconds.den

/-- The number of seconds of a time, without its fraction. -/
def timestampOf : ClockTime → Except RequestFault Int
  | .seconds s => .ok (wholeSeconds s)
  | .infinite => .error .infiniteTime
  | .undefined => .error .undefinedTime

/-- The session of a check that is started at the time `now`, in seconds.  The sender is looked at
first, and the address last. -/
def create (request : CheckRequest) (now : Rat) : Except RequestFault Session := do
  if !request.sender.contains '@' then .error (.noDomainPart request.sender)
  let timestamp ← match request.time with
    | some time => timestampOf time
    | none => .ok (wholeSeconds now)
  let client ← clientOf request.client
  .ok {
    sender := completeSender request.sender
    currentDomain := request.currentDomain.dropFinalDots
    client
    heloDomain := request.heloDomain
    receivingHost := request.receivingHost
    timestamp }

def withDomain (s : Session) (domain : Text) : Session :=
  { s with currentDomain := domain.dropFinalDots }

end Session

end SenderPolicy
