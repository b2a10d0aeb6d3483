import SenderPolicy.Number.Shortest
import SenderPolicy.Text.Quoted

/-! Loosely typed values, as callers assign them to settings and attach them to reports, and the
texts by which logs and messages show them. -/

namespace SenderPolicy

inductive Value
  | nothing
  | truth (b : Bool)
  | integer (n : Int)
  | real (r : Binary64)
  | text (t : Text)
  | list (items : List Value)
  | record (fields : List (Text × Value))
  deriving Inhabited

instance : Coe Text Value := ⟨.text⟩

namespace Value

def typeName : Value → Text
  | .nothing => "NoneType"
  | .truth _ => "bool"
  | .integer _ => "int"
  | .real _ => "float"
  | .text _ => "str"
  | .list _ => "list"
  | .record _ => "dict"

/-- Whether a value counts as false: nothing, falsehood, zero, and what is empty do. -/
def isVoid : Value → Bool
  | .nothing => true
  | .truth b => !b
  | .integer n => n == 0
  | .real r => r.isZero
  | .text t => t.isEmpty
  | .list items => items.isEmpty
  | .record fields => fields.isEmpty

mutual

/-- A value as a literal: texts are in quotes, and the items of lists and records between
brackets. -/
def literal : Value → Text
  | .nothing => "None"
  | .truth b => if b then "True" else "False"
  | .integer n => Text.ofInt n
  | .real r => r.toText
  | .text t => t.quoted
  | .list items => "[" ++ Text.join ", " (literals items) ++ "]"
  | .record fields => [.scalar '\x7b'] ++ Text.join ", " (fieldLiterals fields) ++ [.scalar '\x7d']

def literals : List Value → List Text
  | [] => []
  | v :: items => literal v :: literals items

def fieldLiterals : List (Text × Value) → List Text
  | [] => []
  | (name, v) :: fields => (name.quoted ++ ": " ++ literal v) :: fieldLiterals fields

end

/-- Several values in one text, as literals between parentheses. -/
def sequence (items : List Value) : Text := "(" ++ Text.join ", " (literals items) ++ ")"

/-- A value as a text: a text is itself, and any other value is shown as a literal. -/
def toText : Value → Text
  | .text t => t
  | v => v.literal

end Value

end SenderPolicy
