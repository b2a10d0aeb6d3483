import SenderPolicy.Address.Basic
import SenderPolicy.Text.Blank
import SenderPolicy.Text.Quoted

/-! Reading of addresses from text.  A fault says which rule of the notation is broken first, in the
order in which the rules are applied. -/

namespace SenderPolicy

inductive OctetFault
  | empty
  | notDecimal (octet : Text)
  | long (octet : Text)
  | leadingZero (octet : Text)
  | large (value : Nat)
  deriving DecidableEq, Repr

def OctetFault.message : OctetFault → Text
  | .empty => "Empty octet not permitted"
  | .notDecimal o => "Only decimal digits permitted in " ++ o.quoted
  | .long o => "At most 3 characters permitted in " ++ o.quoted
  | .leadingZero o => "Leading zeros are not permitted in " ++ o.quoted
  | .large n => "Octet " ++ Text.ofNat n ++ " (> 255) not permitted"

inductive QuadFault
  | octetCount
  | octet (fault : OctetFault)
  deriving DecidableEq, Repr

def QuadFault.message (whole : Text) : QuadFault → Text
  | .octetCount => "Expected 4 octets in " ++ whole.quoted
  | .octet f => f.message ++ " in " ++ whole.quoted

inductive GroupsFault
  | fewParts
  | quad (text : Text) (fault : QuadFault)
  | manyColons
  | manyGaps
  | leadingColon
  | trailingColon
  | manyParts
  | partCount
  | notHex (group : Text)
  | longGroup (group : Text)
  deriving DecidableEq, Repr

def GroupsFault.message (whole : Text) (fault : GroupsFault) : Text :=
  let rule : Text := match fault with
    | .fewParts => "At least 3 parts expected"
    | .quad text f => f.message text
    | .manyColons => "At most 8 colons permitted"
    | .manyGaps => "At most one '::' permitted"
    | .leadingColon => "Leading ':' only permitted as part of '::'"
    | .trailingColon => "Trailing ':' only permitted as part of '::'"
    | .manyParts => "Expected at most 7 other parts with '::'"
    | .partCount => "Exactly 8 parts expected without '::'"
    | .notHex g => "Only hex digits permitted in " ++ g.quoted
    | .longGroup g => "At most 4 characters permitted in " ++ g.quoted
  rule ++ " in " ++ whole.quoted

namespace Address

/-- The value of a run of digits in `base`. -/
def valueIn (base : Nat) (digits : Text) : Nat :=
  digits.foldl (fun n c => n * base + digitValue c) 0
where
  /-- The value of a hexadecimal digit. -/
  digitValue (c : Character) : Nat :=
    if c.isDigit then c.toNat - '0'.toNat else c.toLower.toNat - 'a'.toNat + 10

/-- An octet: up to three digits without a zero in front, and no more than 255. -/
def readOctet (t : Text) : Except OctetFault UInt8 :=
  if t = [] then .error .empty
  else if !t.all Character.isDigit then .error (.notDecimal t)
  else if 3 < t.length then .error (.long t)
  else if t != (['0'] : Text) && t.head? == some (.scalar '0') then .error (.leadingZero t)
  else if 255 < valueIn 10 t then .error (.large (valueIn 10 t))
  else .ok (UInt8.ofNat (valueIn 10 t))

/-- An IPv4 address: four octets, separated by dots. -/
def readQuad (t : Text) : Except QuadFault Quad :=
  match t.splitOn (.scalar '.') with
  | [a, b, c, d] => do
    let octet (t : Text) := (readOctet t).mapError .octet
    .ok #v[← octet a, ← octet b, ← octet c, ← octet d]
  | _ => .error .octetCount

def isHexDigit (c : Character) : Bool :=
  c.isDigit || ('a' ≤ c && c ≤ 'f') || ('A' ≤ c && c ≤ 'F')

/-- A group: up to four hexadecimal digits. -/
def readGroup (t : Text) : Except GroupsFault UInt16 :=
  if !t.all isHexDigit then .error (.notHex t)
  else if 4 < t.length then .error (.longGroup t)
  else .ok (UInt16.ofNat (valueIn 16 t))

/-- The parts of an IPv6 address, where the last one may be an IPv4 address that stands for two. -/
def expandQuad (parts : List Text) : Except GroupsFault (List Text) :=
  match parts.getLast? with
  | none => .ok parts
  | some last =>
    if last.contains '.' then
      match readQuad last with
      | .error f => .error (.quad last f)
      | .ok q =>
        let pair (high low : UInt8) := Text.ofHex 1 (high.toNat * 0x100 + low.toNat)
        .ok (parts.dropLast ++ [pair q[0] q[1], pair q[2] q[3]])
    else .ok parts

/-- The places of empty parts other than the first and the last part. -/
def gaps (parts : List Text) : List Nat :=
  (List.range parts.length).filter fun i => 0 < i && i + 1 < parts.length && parts[i]? == some []

/-- The parts before and after the gap, or all parts and none where there is no gap.  An empty part
at an end is allowed only beside the gap. -/
def halves (parts : List Text) : Except GroupsFault (List Text × List Text) :=
  match gaps parts with
  | _ :: _ :: _ => .error .manyGaps
  | [gap] =>
    let before := parts.take gap
    let after := parts.drop (gap + 1)
    if before.head? = some [] ∧ before.length ≠ 1 then .error .leadingColon
    else if after.getLast? = some [] ∧ after.length ≠ 1 then .error .trailingColon
    else
      let before := before.filter (· != [])
      let after := after.filter (· != [])
      if 7 < before.length + after.length then .error .manyParts else .ok (before, after)
  | [] =>
    if parts.length ≠ 8 then .error .partCount
    else if parts.head? = some [] then .error .leadingColon
    else if parts.getLast? = some [] then .error .trailingColon
    else .ok (parts, [])

/-- Eight groups: `high` from the left, `low` up to the right end, and zeros between them. -/
def fill (high low : List UInt16) : Groups :=
  Vector.ofFn fun i => high.getD i (low.reverse.getD (7 - i) 0)

/-- An IPv6 address without a scope. -/
def readGroups (t : Text) : Except GroupsFault Groups := do
  let parts := t.splitOn (.scalar ':')
  if parts.length < 3 then .error .fewParts
  let parts ← expandQuad parts
  if 9 < parts.length then .error .manyColons
  let (high, low) ← halves parts
  .ok (fill (← high.mapM readGroup) (← low.mapM readGroup))

/-- The text before a percent sign and the scope after it, if there is one: the scope has to be
there, and holds no percent sign. -/
def splitScope? (t : Text) : Option (Text × Option Text) :=
  match t.splitOn (.scalar '%') with
  | [address] => some (address, none)
  | [_, []] => none
  | [address, scope] => some (address, some scope)
  | _ => none

def ofText? (t : Text) : Option Address :=
  if t.contains '/' then none
  else match readQuad t with
    | .ok q => some (.v4 q)
    | .error _ => match splitScope? t with
      | some (address, scope) => match readGroups address with
        | .ok g => some (.v6 g scope)
        | .error _ => none
      | none => none

/-- The address of a client.  White space around the text does not count, and a mapped IPv4 address
is the IPv4 address itself. -/
def ofClient? (t : Text) : Option Address :=
  (ofText? (Text.trim Text.isBlank t)).map unmapped

/-- The form of an address in a macro: an IPv4 address as it is written, and the 32 digits of an
IPv6 address, separated by dots.  The digits are those of the text read anew, and a text with a
scope is not read. -/
def dotted : Address → Except GroupsFault Text
  | .v4 q => .ok q.toText
  | .v6 g scope =>
    let spread (g : Groups) : Text := Text.join ['.'] (g.nibbles.map fun c => [c])
    match scope with
    | none => .ok (spread g)
    | some _ => (readGroups (Address.v6 g scope).toText).map spread

end Address

end SenderPolicy
