import SenderPolicy.Text.Character

/-! Sets of characters given by ranges of code points. -/

namespace SenderPolicy.Text

/-- A set of code points, as its ranges of first and last member. -/
abbrev Ranges := List (Nat × Nat)

/-- A character belongs to the set if one of the ranges spans its code point. -/
def Ranges.contains (ranges : Ranges) (c : Character) : Bool :=
  ranges.any fun (first, last) => first ≤ c.toNat && c.toNat ≤ last

end SenderPolicy.Text
