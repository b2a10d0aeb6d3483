import SenderPolicy.Text.Utf8

/-! Domain names as lists of labels, which are strings of bytes: which labels make a name, and how
it is presented as text. -/

namespace SenderPolicy

/-- A domain name, as its labels from left to right.  The root has none. -/
abbrev DomainName := List Bytes

inductive NameFault
  | longLabel
  | longName
  | emptyLabel
  deriving DecidableEq, Repr

def NameFault.message : NameFault → Text
  | .longLabel => "A DNS label is > 63 octets long."
  | .longName => "A DNS name is > 255 octets long."
  | .emptyLabel => "A DNS label is empty."

namespace DomainName

/-- The name whose labels have these UTF-8 forms. -/
def ofStrings (labels : List String) : DomainName :=
  labels.map fun label => Utf8.encode label.toList

/-- Why labels make no name, if they do not: each has 1 to 63 octets, and together, with an octet
for the length of each and one for the root, they have 255 at most. -/
def fault? (labels : List Bytes) : Option NameFault :=
  let sizes := labels.map List.length
  if sizes.any (63 < ·) then some .longLabel
  else if 255 < sizes.foldl (fun total size => total + size + 1) 1 then some .longName
  else if sizes.contains 0 then some .emptyLabel
  else none

/-- The characters of a label that follow a backslash. -/
def special : List Character := ['\x22', '(', ')', '.', ';', '\x5c', '@', '$']

/-- A byte of a label: a special character follows a backslash, other visible characters of ASCII
stand for themselves, and every other byte is a backslash with three decimal digits. -/
def presentByte (b : UInt8) : Text :=
  let c : Character := .scalar (Char.ofNat b.toNat)
  if c ∈ special then ['\x5c', c]
  else if 0x21 ≤ b ∧ b ≤ 0x7e then [c]
  else
    let digits := Text.ofNat b.toNat
    "\x5c" ++ Text.zeros (3 - digits.length) ++ digits

def presentLabel (label : Bytes) : Text := label.flatMap presentByte

/-- A name without a dot at its end; the root is a dot. -/
def toText (name : DomainName) : Text :=
  if name = [] then ['.'] else Text.join ['.'] (name.map presentLabel)

end DomainName

end SenderPolicy
