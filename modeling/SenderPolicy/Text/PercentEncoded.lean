import SenderPolicy.Text.Utf8

/-! Percent-encoding: the unreserved characters of a URI stand for themselves, and every other
character is written by the bytes of its UTF-8 form. -/

namespace SenderPolicy.Text

/-- The unreserved characters of a URI. -/
def isUnreserved (c : Character) : Bool := c.isAlphanum || ("-._~" : Text).contains c

/-- The upper-case hexadecimal digit of a number below 16. -/
def upperHexDigit (n : Nat) : Character := .scalar (Nat.digitChar n).toUpper

def percentByte (b : UInt8) : Text :=
  ['%', upperHexDigit (b.toNat / 16), upperHexDigit (b.toNat % 16)]

def percentChar (c : Char) : Text :=
  if isUnreserved c then [↑c] else (String.utf8EncodeChar c).flatMap percentByte

def percentEncode (cs : List Char) : Text := cs.flatMap percentChar

/-- The encoded text, unless it holds surrogates. -/
def percentEncode? (t : Text) : Except EncodeFault Text := t.scalars?.map percentEncode

end SenderPolicy.Text
