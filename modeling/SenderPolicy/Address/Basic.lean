import SenderPolicy.Text.Basic

/-! Addresses of both families, with their written forms: the compressed one, the dotted one of
macros, and the name under which the addresses' pointers are published. -/

namespace SenderPolicy

/-- The four octets of an IPv4 address, the most significant one first. -/
abbrev Quad := Vector UInt8 4

/-- The eight groups of an IPv6 address, the most significant one first. -/
abbrev Groups := Vector UInt16 8

/-- An address; the scope of an IPv6 address names a network of the host. -/
inductive Address
  | v4 (octets : Quad)
  | v6 (groups : Groups) (scope : Option Text)
  deriving DecidableEq, Repr

def Quad.toText (q : Quad) : Text := Text.join ['.'] (q.toList.map fun o => Text.ofNat o.toNat)

namespace Groups

/-- The length of the run of zero groups at the front of a list. -/
def zeros (groups : List UInt16) : Nat := (groups.takeWhile (· == 0)).length

/-- The start and the length of the longest run of zero groups; of runs of one length, the first. -/
def longestZeros (groups : List UInt16) : Nat × Nat :=
  (List.range groups.length).foldl
    (fun best i => if best.2 < zeros (groups.drop i) then (i, zeros (groups.drop i)) else best)
    (0, 0)

def colonHex (groups : List UInt16) : Text :=
  Text.join [':'] (groups.map fun g => Text.ofHex 1 g.toNat)

/-- The compressed form: two colons stand for the longest run of two or more zero groups. -/
def toText (g : Groups) : Text :=
  let (start, length) := longestZeros g.toList
  if length ≤ 1 then colonHex g.toList
  else colonHex (g.toList.take start) ++ "::" ++ colonHex (g.toList.drop (start + length))

/-- The 32 hexadecimal digits, the most significant one first. -/
def nibbles (g : Groups) : Text := g.toList.flatMap fun group => Text.ofHex 4 group.toNat

/-- The IPv4 address that is mapped into these groups, if one is. -/
def mapped? (g : Groups) : Option Quad :=
  match g.toList with
  | [0, 0, 0, 0, 0, 0xffff, high, low] =>
    some #v[(high >>> 8).toUInt8, high.toUInt8, (low >>> 8).toUInt8, low.toUInt8]
  | _ => none

end Groups

namespace Address

def toText : Address → Text
  | .v4 q => q.toText
  | .v6 g none => g.toText
  | .v6 g (some scope) => g.toText ++ .scalar '%' :: scope

/-- The label of an address family in names. -/
def label : Address → Text
  | .v4 _ => "in-addr"
  | .v6 _ _ => "ip6"

/-- The IPv4 address in place of an IPv6 address that maps it. -/
def unmapped : Address → Address
  | .v6 g scope => match g.mapped? with
    | some q => .v4 q
    | none => .v6 g scope
  | a => a

def quadPointerName (q : Quad) : Text :=
  Text.join ['.'] (q.toList.reverse.map fun o => Text.ofNat o.toNat) ++ ".in-addr.arpa"

def groupsPointerName (g : Groups) : Text :=
  Text.join ['.'] (g.nibbles.reverse.map fun c => [c]) ++ ".ip6.arpa"

/-- The name under which the pointers of an address are published, if it has one: an address with a
scope has none, and a mapped IPv4 address has the name of that address. -/
def pointerName? : Address → Option Text
  | .v4 q => some (quadPointerName q)
  | .v6 _ (some _) => none
  | .v6 g none => match g.mapped? with
    | some q => some (quadPointerName q)
    | none => some (groupsPointerName g)

end Address

end SenderPolicy
