import SenderPolicy.MacroString.Letter
import SenderPolicy.Text.CharacterClass
import SenderPolicy.Text.PercentEncoded

/-! Macros: a letter and the transformation of its value.  A value is cut at the delimiters, its
parts are reversed and truncated, and what is left is joined by dots. -/

namespace SenderPolicy

/-- How the value of a macro letter is transformed. -/
structure Transformation where
  /-- The number of parts to keep, counted from the right; all of them, if there is no number. -/
  truncation : Option Int := none
  reverse : Bool := false
  /-- The characters that separate parts. -/
  delimiters : Text := ['.']
  urlEncode : Bool := false
  deriving DecidableEq, Repr

namespace Transformation

/-- The parts of a value: it is cut at every character that is a delimiter. -/
def parts (m : Transformation) (value : Text) : List Text :=
  value.splitOnP m.delimiters.contains

/-- A value cut at the characters that match the class written with the delimiters, if that is a
class. -/
def partsByClass? (delimiters value : Text) : Option (List Text) :=
  (CharacterClass.ofPattern? (CharacterClass.patternOf delimiters)).map fun k =>
    value.splitOnP k.contains

/-- The parts of a value, if there are delimiters at all.  A single delimiter is looked for as it
is, and several by their class. -/
def parts? (m : Transformation) (value : Text) : Option (List Text) :=
  match m.delimiters with
  | [d] => some (value.splitOn d)
  | delimiters => partsByClass? delimiters value

theorem partsByClass?_eq_some {delimiters : Text} (h : delimiters ≠ []) (value : Text) :
    partsByClass? delimiters value = some (value.splitOnP delimiters.contains) := by
  have hcontains : CharacterClass.contains ⟨false, delimiters.map fun c => (c, c)⟩ =
      delimiters.contains := funext (CharacterClass.contains_singles delimiters)
  rw [partsByClass?, CharacterClass.ofPattern?_patternOf h, Option.map_some, hcontains]

theorem splitOn_eq_splitOnP (d : Character) (value : Text) :
    value.splitOn d = value.splitOnP [d].contains := by
  have hcontains : [d].contains = (· == d) := by
    funext c
    simp [Bool.beq_eq_decide_eq, eq_comm]
  rw [hcontains]
  rfl

/-- Both ways to look for delimiters cut a value at the same characters. -/
theorem parts?_eq_some {m : Transformation} (h : m.delimiters ≠ []) (value : Text) :
    m.parts? value = some (m.parts value) := by
  unfold parts? parts
  split
  · next d hd => rw [hd, splitOn_eq_splitOnP]
  · exact partsByClass?_eq_some h value

/-- The parts in the order in which they are counted. -/
def ordered (m : Transformation) (parts : List Text) : List Text :=
  if m.reverse then parts.reverse else parts

/-- The last `n` items of a list for a positive `n`; for any other, all but the first `-n`. -/
def lastItems {α : Type} (n : Int) (items : List α) : List α :=
  if 0 < n then items.drop (items.length - n.toNat) else items.drop (-n).toNat

def kept (m : Transformation) (parts : List Text) : List Text :=
  match m.truncation with
  | none => parts
  | some n => lastItems n parts

/-- The parts that a transformation selects, in their new order. -/
def selected (m : Transformation) (value : Text) : List Text :=
  m.kept (m.ordered (m.parts value))

/-- The text of some parts, unless it holds surrogates that would have to be encoded. -/
def rejoin (m : Transformation) (parts : List Text) : Except EncodeFault Text :=
  let joined := Text.join ['.'] parts
  if m.urlEncode then joined.percentEncode? else .ok joined

def transform (m : Transformation) (value : Text) : Except EncodeFault Text :=
  m.rejoin (m.selected value)

/-- Why a value cannot be transformed. -/
inductive Fault
  | noDelimiters
  | unencodable (fault : EncodeFault)
  deriving DecidableEq, Repr

def Fault.message : Fault → Text
  | .noDelimiters => "unterminated character set at position 0"
  | .unencodable fault => fault.message

/-- The transformed value, if there are delimiters at all. -/
def transform? (m : Transformation) (value : Text) : Except Fault Text :=
  match m.parts? value with
  | none => .error .noDelimiters
  | some parts => (m.rejoin (m.kept (m.ordered parts))).mapError .unencodable

theorem transform?_eq_transform {m : Transformation} (h : m.delimiters ≠ []) (value : Text) :
    m.transform? value = (m.transform value).mapError .unencodable := by
  rw [transform?, parts?_eq_some h]
  rfl

end Transformation

/-- A macro: the letter and the transformation of its value. -/
structure Token extends Transformation where
  letter : Letter
  deriving DecidableEq, Repr

/-- A piece of a macro string: text that stands for itself, or a macro. -/
inductive Piece
  | literal (text : Text)
  | token (token : Token)
  deriving DecidableEq, Repr

end SenderPolicy
