import SenderPolicy.Text.Basic
import SenderPolicy.Text.Printable

/-! Quoted texts, as error messages show them. -/

namespace SenderPolicy.Text

/-- A text is quoted with apostrophes, unless it holds an apostrophe and no double quote. -/
def quoteMark (t : Text) : Character :=
  if t.contains '\x27' && !t.contains '\x22' then '\x22' else '\x27'

/-- A character as it stands between the marks `mark`: the mark and the backslash follow a
backslash, the line breaks and the tabulator have letters, and other characters that are not
printable are written by their code point in two, four or eight hexadecimal digits. -/
def escaped (mark c : Character) : Text :=
  if c = mark ∨ c = '\x5c' then ['\x5c', c]
  else if c = '\n' then "\\n"
  else if c = '\r' then "\\r"
  else if c = '\t' then "\\t"
  else if isPrintable c then [c]
  else if c.toNat ≤ 0xff then "\\x" ++ ofHex 2 c.toNat
  else if c.toNat ≤ 0xffff then "\\u" ++ ofHex 4 c.toNat
  else "\\U" ++ ofHex 8 c.toNat

def quoted (t : Text) : Text :=
  let mark := t.quoteMark
  mark :: t.flatMap (escaped mark) ++ [mark]

end SenderPolicy.Text
