import SenderPolicy.Text.Basic
import SenderPolicy.Text.CaseTable

/-! Upper and lower case of whole texts.  A capital sigma becomes a final sigma at the end of a
word; every other character changes case by itself. -/

namespace SenderPolicy.Text

/-- The other case of a character by a table, or the character itself. -/
def mapCase (runs : List CaseRun) (c : Character) : Character := (runs.findSome? (·.map? c)).getD c

/-- The lower case of a character; a capital I with a dot keeps its dot as a mark. -/
def lowerChar (c : Character) : Text :=
  if c.toNat < 0x80 then [c.toLower]
  else if c = '\u0130' then ['i', '\u0307']
  else [mapCase lowerRuns c]

def upperChar (c : Character) : Text :=
  if c.toNat < 0x80 then [c.toUpper]
  else match upperExpansions.lookup c.toNat with
    | some codes => codes.map fun code => .scalar (Char.ofNat code)
    | none => [mapCase upperRuns c]

/-- The nearest character that is not case-ignorable is cased. -/
def startsCased (t : Text) : Bool :=
  match t.dropWhile caseIgnorable.contains with
  | [] => false
  | c :: _ => casedLetters.contains c

/-- The small letter of a capital sigma, with the characters before it, nearest first, and those
after it: final after a cased letter, unless another follows. -/
def smallSigma (before after : Text) : Character :=
  if startsCased before && !startsCased after then 'ς' else 'σ'

/-- The lower case of `t`, which follows the reverse of `before`. -/
def lowerAfter (before : Text) : Text → Text
  | [] => []
  | c :: t =>
    (if c = 'Σ' then [smallSigma before t] else lowerChar c) ++ lowerAfter (c :: before) t

def lower (t : Text) : Text := lowerAfter [] t

def upper (t : Text) : Text := t.flatMap upperChar

end SenderPolicy.Text
