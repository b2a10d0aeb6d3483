import SenderPolicy.Proofs.Address.Compressed

/-! The dotted form of addresses.  It separates the octets of an IPv4 address and the digits of an
IPv6 address, which spell the number of the address.  An address without a scope is read back from
its dotted form, so no two of them have the same one. -/

namespace SenderPolicy

namespace Groups

/-- The number of 128 bits whose groups these are. -/
def number (g : Groups) : Nat := g.toList.foldl (fun n group => n * 0x10000 + group.toNat) 0

end Groups

namespace Address

variable {client : Address}

/-! ### Digits of groups -/

theorem length_ofHex_four (group : UInt16) : (Text.ofHex 4 group.toNat).length = 4 := by
  obtain ⟨hlow, hhigh⟩ := length_ofHex (Nat.le_refl 4) group
  omega

theorem length_nibbles (g : Groups) : g.nibbles.length = 32 := by
  obtain ⟨a, b, c, d, e, f, h, i, rfl⟩ := exists_groups g
  simp [Groups.nibbles, length_ofHex_four]

theorem mem_lowerHexDigits_of_mem_nibbles {g : Groups} {c : Character} (h : c ∈ g.nibbles) :
    c ∈ lowerHexDigits := by
  obtain ⟨group, -, hc⟩ := List.mem_flatMap.1 h
  exact mem_lowerHexDigits_of_mem_ofHex hc

theorem valueIn_flatMap_ofHex (groups : List UInt16) :
    valueIn 16 (groups.flatMap fun group => Text.ofHex 4 group.toNat) =
      groups.foldl (fun n group => n * 0x10000 + group.toNat) 0 := by
  induction groups using List.reverseRecOn with
  | nil => rfl
  | append_singleton groups group ih =>
    rw [List.flatMap_append, List.flatMap_singleton, valueIn_append, ih, length_ofHex_four,
      valueIn_ofHex, List.foldl_append]
    rfl

/-- The digits of an address spell its number. -/
theorem valueIn_nibbles (g : Groups) : valueIn 16 g.nibbles = g.number :=
  valueIn_flatMap_ofHex g.toList

/-! ### Parts -/

/-- What the dotted form of an address separates by dots. -/
def parts : Address → List Text
  | .v4 q => q.toList.map fun o => Text.ofNat o.toNat
  | .v6 g _ => g.nibbles.map fun c => [c]

theorem dot_not_mem_parts (client : Address) :
    ∀ part ∈ client.parts, Character.scalar '.' ∉ part := by
  have hdot : isHexDigit '.' = false := by decide
  intro part hpart hmem
  refine Bool.eq_false_iff.1 hdot ?_
  cases client with
  | v4 q =>
    obtain ⟨o, -, rfl⟩ := List.mem_map.1 hpart
    exact isHexDigit_ofNat _ _ hmem
  | v6 g scope =>
    obtain ⟨c, hc, rfl⟩ := List.mem_map.1 hpart
    rw [List.mem_singleton.1 hmem]
    exact isHexDigit_of_mem_lowerHexDigits (mem_lowerHexDigits_of_mem_nibbles hc)

theorem parts_ne_nil (client : Address) : client.parts ≠ [] := by
  cases client with
  | v4 q =>
    obtain ⟨a, b, c, d, rfl⟩ := exists_octets q
    nofun
  | v6 g scope =>
    obtain ⟨a, b, c, d, e, f, h, i, rfl⟩ := exists_groups g
    have hfirst : Text.ofHex 4 a.toNat ≠ [] := ofHex_ne_nil 4 a.toNat
    simp [parts, Groups.nibbles, hfirst]

theorem dotted_eq (h : client.isScoped = false) :
    client.dotted = .ok (Text.join ['.'] client.parts) := by
  match client with
  | .v4 q => rfl
  | .v6 g none => rfl
  | .v6 g (some scope) => cases h

theorem splitOn_dotted (client : Address) :
    (Text.join ['.'] client.parts).splitOn (.scalar '.') = client.parts :=
  Text.splitOn_join client.dot_not_mem_parts client.parts_ne_nil

/-! ### Reading -/

/-- The items of a list, four by four. -/
def fours {α : Type} : List α → List (List α)
  | a :: b :: c :: d :: items => [a, b, c, d] :: fours items
  | _ => []

theorem fours_append {α : Type} {four : List α} (h : four.length = 4) (items : List α) :
    fours (four ++ items) = four :: fours items := by
  match four, h with
  | [a, b, c, d], _ => rfl

theorem fours_flatMap_ofHex (groups : List UInt16) :
    fours (groups.flatMap fun group => Text.ofHex 4 group.toNat) =
      groups.map fun group => Text.ofHex 4 group.toNat := by
  induction groups with
  | nil => rfl
  | cons group groups ih =>
    rw [List.flatMap_cons, fours_append (length_ofHex_four group), ih, List.map_cons]

/-- The address that is read from a dotted form: four parts are octets, and of more parts, which are
digits, four make a group. -/
def ofDotted? (form : Text) : Option Address :=
  let parts := form.splitOn (.scalar '.')
  if parts.length = 4 then ofText? form else ofText? (Text.join [':'] (fours parts.flatten))

theorem ofDotted?_join_parts (h : client.isScoped = false) :
    ofDotted? (Text.join ['.'] client.parts) = some client := by
  unfold ofDotted?
  rw [splitOn_dotted]
  match client with
  | .v4 q =>
    have hlength : (Address.v4 q).parts.length = 4 := by simp [parts]
    simp only [hlength, if_true]
    exact ofText?_toText q
  | .v6 g none =>
    have hlength : (Address.v6 g none).parts.length = 32 := by
      rw [parts, List.length_map, length_nibbles]
    have hdigits : (Address.v6 g none).parts.flatten = g.nibbles := by
      rw [parts, ← List.flatMap_def, List.flatMap_singleton']
    have hfours : fours g.nibbles = g.toList.map fun group => Text.ofHex 4 group.toNat :=
      fours_flatMap_ofHex g.toList
    simp only [hlength, hdigits, hfours]
    exact ofText?_hexGroups (Nat.le_refl 4) g
  | .v6 g (some scope) => cases h

/-- What the dotted form of an address is: four octets in decimal, or 32 lower-case hexadecimal
digits that spell the number of the address, the most significant one first. -/
inductive IsDotted : Address → Text → Prop
  | octets (a b c d : UInt8) :
    IsDotted (.v4 #v[a, b, c, d])
      (Text.join ['.'] ([a, b, c, d].map fun octet => Text.ofNat octet.toNat))
  | digits {g : Groups} {digits : Text} : digits.length = 32 →
    (∀ digit ∈ digits, digit ∈ lowerHexDigits) → valueIn 16 digits = g.number →
    IsDotted (.v6 g none) (Text.join ['.'] (digits.map fun digit => [digit]))

theorem isDotted_join_parts (h : client.isScoped = false) :
    IsDotted client (Text.join ['.'] client.parts) := by
  match client with
  | .v4 q =>
    obtain ⟨a, b, c, d, rfl⟩ := exists_octets q
    exact .octets a b c d
  | .v6 g none =>
    exact .digits (length_nibbles g) (fun _ => mem_lowerHexDigits_of_mem_nibbles)
      (valueIn_nibbles g)
  | .v6 g (some scope) => cases h

end Address

end SenderPolicy
