import SenderPolicy.Text.Ranges

/-! White space: the Unicode class, and the wider set that also counts the four information
separators of ASCII. -/

namespace SenderPolicy.Text

def whiteSpace : Ranges :=
  [(0x09, 0x0d), (0x20, 0x20), (0x85, 0x85), (0xa0, 0xa0), (0x1680, 0x1680), (0x2000, 0x200a),
    (0x2028, 0x2029), (0x202f, 0x202f), (0x205f, 0x205f), (0x3000, 0x3000)]

def isWhiteSpace (c : Character) : Bool := whiteSpace.contains c

/-- White space of Unicode, or an information separator. -/
def isBlank (c : Character) : Bool := isWhiteSpace c || (0x1c ≤ c.toNat && c.toNat ≤ 0x1f)

end SenderPolicy.Text
