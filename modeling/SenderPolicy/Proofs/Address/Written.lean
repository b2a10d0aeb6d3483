import Mathlib.Algebra.Group.Nat.Defs
import Mathlib.Data.List.Induction
import SenderPolicy.Address.Reading
import SenderPolicy.Proofs.Text.Parts

/-! Every address without a scope has a text that denotes it: for an IPv4 address its written form,
for an IPv6 address its eight groups in hexadecimal. -/

namespace SenderPolicy.Address

/-! ### Digits -/

theorem digitValue_digitChar {d : Nat} (h : d < 16) : valueIn.digitValue d.digitChar = d := by
  have : ∀ d : Fin 16, valueIn.digitValue d.val.digitChar = d.val := by decide
  exact this ⟨d, h⟩

theorem isHexDigit_digitChar {d : Nat} (h : d < 16) : isHexDigit d.digitChar := by
  have : ∀ d : Fin 16, isHexDigit d.val.digitChar := by decide
  exact this ⟨d, h⟩

theorem valueIn_append_singleton (base : Nat) (digits : Text) (c : Character) :
    valueIn base (digits ++ [c]) = valueIn base digits * base + valueIn.digitValue c := by
  simp [valueIn]

theorem valueIn_digits {base : Nat} (hlow : 1 < base) (hhigh : base ≤ 16) (n : Nat) :
    valueIn base (Text.digits base n) = n := by
  induction n using Nat.strongRecOn with
  | ind n ih =>
    rcases Nat.lt_or_ge n base with hn | hn
    · rw [Text.digits_of_lt hn]
      simpa [valueIn] using digitValue_digitChar (Nat.lt_of_lt_of_le hn hhigh)
    · have hrest : n % base < base := Nat.mod_lt _ (by omega)
      rw [Text.digits_of_le hlow hn, valueIn_append_singleton,
        ih _ (Nat.div_lt_self (by omega) hlow), digitValue_digitChar (by omega)]
      exact Nat.div_add_mod' n base

/-- The digits of a number are the forms of the values below the base. -/
theorem exists_of_mem_digits {base : Nat} (hlow : 1 < base) {n : Nat} {c : Character}
    (hc : c ∈ Text.digits base n) : ∃ d < base, c = d.digitChar := by
  induction n using Nat.strongRecOn with
  | ind n ih =>
    rcases Nat.lt_or_ge n base with hn | hn
    · rw [Text.digits_of_lt hn, List.mem_singleton] at hc
      exact ⟨n, hn, hc⟩
    · rw [Text.digits_of_le hlow hn, List.mem_append, List.mem_singleton] at hc
      rcases hc with hc | hc
      · exact ih _ (Nat.div_lt_self (by omega) hlow) hc
      · exact ⟨n % base, Nat.mod_lt _ (by omega), hc⟩

/-- The lower-case hexadecimal digits. -/
def lowerHexDigits : Text := "0123456789abcdef"

theorem digitChar_mem_lowerHexDigits {d : Nat} (h : d < 16) :
    ↑d.digitChar ∈ lowerHexDigits := by
  have : ∀ d : Fin 16, ↑d.val.digitChar ∈ lowerHexDigits := by decide
  exact this ⟨d, h⟩

theorem mem_lowerHexDigits_of_mem_ofHex {width n : Nat} {c : Character}
    (hc : c ∈ Text.ofHex width n) :
    c ∈ lowerHexDigits := by
  rw [Text.ofHex, List.mem_append] at hc
  rcases hc with hc | hc
  · rw [List.eq_of_mem_replicate hc]
    decide
  · obtain ⟨d, hd, rfl⟩ := exists_of_mem_digits (by decide) hc
    exact digitChar_mem_lowerHexDigits hd

theorem isHexDigit_of_mem_lowerHexDigits {c : Character} (h : c ∈ lowerHexDigits) :
    isHexDigit c := by
  have hall : lowerHexDigits.all isHexDigit = true := by decide
  exact List.all_eq_true.1 hall c h

theorem isHexDigit_ofHex (width n : Nat) : ∀ c ∈ Text.ofHex width n, isHexDigit c :=
  fun _ hc => isHexDigit_of_mem_lowerHexDigits (mem_lowerHexDigits_of_mem_ofHex hc)

theorem isHexDigit_ofNat (n : Nat) : ∀ c ∈ Text.ofNat n, isHexDigit c := by
  intro c hc
  obtain ⟨d, hd, rfl⟩ := exists_of_mem_digits (by decide) hc
  exact isHexDigit_digitChar (by omega)

theorem valueIn_append (base : Nat) (digits others : Text) :
    valueIn base (digits ++ others) =
      valueIn base digits * base ^ others.length + valueIn base others := by
  induction others using List.reverseRecOn with
  | nil => simp [valueIn]
  | append_singleton others c ih =>
    rw [← List.append_assoc, valueIn_append_singleton, ih, valueIn_append_singleton,
      List.length_append, List.length_singleton, Nat.pow_succ, Nat.add_mul, Nat.mul_assoc,
      Nat.add_assoc]

/-- Zeros in front of the digits of a number leave its value. -/
theorem valueIn_ofHex (width n : Nat) : valueIn 16 (Text.ofHex width n) = n := by
  have hzeros (k : Nat) : valueIn 16 (Text.zeros k) = 0 := by
    induction k with
    | zero => rfl
    | succ k ih =>
      rw [Text.zeros, List.replicate_succ', ← Text.zeros, valueIn_append_singleton, ih]
      rfl
  rw [Text.ofHex, valueIn_append, hzeros, valueIn_digits (by decide) (by decide)]
  omega

/-- A group has four digits at most, and four if as many are asked for. -/
theorem length_ofHex {width : Nat} (hwidth : width ≤ 4) (g : UInt16) :
    width ≤ (Text.ofHex width g.toNat).length ∧ (Text.ofHex width g.toNat).length ≤ 4 := by
  have hdigits : (Text.digits 16 g.toNat).length ≤ 4 := by
    rw [Text.digits, Text.ofChars, List.length_map]
    exact (Nat.length_toDigits_le_iff (by decide) (by decide)).2 g.toNat_lt
  rw [Text.ofHex, List.length_append, Text.zeros, List.length_replicate]
  omega

theorem readGroup_ofHex {width : Nat} (hwidth : width ≤ 4) (g : UInt16) :
    readGroup (Text.ofHex width g.toNat) = .ok g := by
  have hdigits : (Text.ofHex width g.toNat).all isHexDigit :=
    List.all_eq_true.2 (isHexDigit_ofHex width g.toNat)
  have hlength := (length_ofHex hwidth g).2
  rw [readGroup, hdigits, valueIn_ofHex, UInt16.ofNat_toNat]
  simp [Nat.not_lt.2 hlength]

theorem readOctet_ofNat (o : UInt8) : readOctet (Text.ofNat o.toNat) = .ok o := by
  have hread : ∀ n : Fin 256,
      (readOctet (Text.ofNat n.val)).toOption = some (UInt8.ofNat n.val) := by
    decide +kernel
  have ho := hread ⟨o.toNat, o.toNat_lt⟩
  rw [UInt8.ofNat_toNat] at ho
  cases hr : readOctet (Text.ofNat o.toNat) with
  | error fault => rw [hr] at ho; cases ho
  | ok read =>
    rw [hr] at ho
    exact congrArg Except.ok (Option.some.inj ho)

/-! ### Texts -/

/-- Hexadecimal digits and single separators make a text without any other character. -/
theorem not_mem_join {c separator : Character} {parts : List Text}
    (hparts : ∀ part ∈ parts, ∀ d ∈ part, isHexDigit d) (hc : isHexDigit c = false)
    (hne : c ≠ separator) : c ∉ Text.join [separator] parts := fun h => by
  rcases Text.mem_join h with h | ⟨part, hpart, h⟩
  · exact hne h
  · rw [hparts part hpart c h] at hc
    cases hc

theorem exists_octets (q : Quad) : ∃ a b c d, q = #v[a, b, c, d] := by
  obtain ⟨⟨octets⟩, h⟩ := q
  match octets, h with
  | [a, b, c, d], _ => exact ⟨a, b, c, d, rfl⟩

theorem exists_groups (g : Groups) :
    ∃ a b c d e f h i, g = #v[a, b, c, d, e, f, h, i] := by
  obtain ⟨⟨groups⟩, h⟩ := g
  match groups, h with
  | [a, b, c, d, e, f, h, i], _ => exact ⟨a, b, c, d, e, f, h, i, rfl⟩

theorem readQuad_toText (q : Quad) : readQuad q.toText = .ok q := by
  obtain ⟨a, b, c, d, rfl⟩ := exists_octets q
  have hsplit : (Quad.toText #v[a, b, c, d]).splitOn (.scalar '.') =
      [a, b, c, d].map fun o => Text.ofNat o.toNat := by
    refine Text.splitOn_join (fun part hpart hdot => ?_) (by simp)
    obtain ⟨o, -, rfl⟩ := List.mem_map.1 hpart
    exact absurd (isHexDigit_ofNat _ _ hdot) (by decide)
  unfold readQuad
  rw [hsplit]
  simp only [List.map_cons, List.map_nil, readOctet_ofNat]
  rfl

/-! ### IPv6 -/

/-- The eight groups in hexadecimal, each of which has a digit at least. -/
theorem ofHex_ne_nil (width n : Nat) : Text.ofHex width n ≠ [] :=
  List.append_ne_nil_of_right_ne_nil _ (mt List.map_eq_nil_iff.1 Nat.toDigits_ne_nil)

/-- Groups in hexadecimal with `width` digits each at least, separated by colons. -/
def hexGroups (width : Nat) (groups : List UInt16) : Text :=
  Text.join [':'] (groups.map fun g => Text.ofHex width g.toNat)

theorem colonHex_eq (groups : List UInt16) : Groups.colonHex groups = hexGroups 1 groups := rfl

theorem splitOn_hexGroups (width : Nat) {groups : List UInt16} (h : groups ≠ []) :
    (hexGroups width groups).splitOn (.scalar ':') =
      groups.map fun g => Text.ofHex width g.toNat := by
  refine Text.splitOn_join (fun part hpart hcolon => ?_) (by simpa using h)
  obtain ⟨g, -, rfl⟩ := List.mem_map.1 hpart
  exact absurd (isHexDigit_ofHex _ _ _ hcolon) (by decide)

theorem not_mem_hexGroups {c : Character} (width : Nat) (groups : List UInt16)
    (hc : isHexDigit c = false) (hne : c ≠ ':') : c ∉ hexGroups width groups := by
  refine not_mem_join (fun part hpart d hd => ?_) hc hne
  obtain ⟨g, -, rfl⟩ := List.mem_map.1 hpart
  exact isHexDigit_ofHex _ _ _ hd

theorem gaps_eq_nil {parts : List Text} (h : ∀ part ∈ parts, part ≠ []) : gaps parts = [] := by
  refine List.filter_eq_nil_iff.2 fun i _ hi => ?_
  simp only [Bool.and_eq_true, beq_iff_eq] at hi
  exact h [] (List.mem_of_getElem? hi.2) rfl

theorem expandQuad_of_not_mem {parts : List Text}
    (h : ∀ part ∈ parts, Character.scalar '.' ∉ part) :
    expandQuad parts = .ok parts := by
  unfold expandQuad
  cases hlast : parts.getLast? with
  | none => rfl
  | some last =>
    have hdot : last.contains '.' = false := by
      simpa using h last (List.mem_of_getLast? hlast)
    simp only [hdot, Bool.false_eq_true, if_false]

theorem mapM_readGroup {width : Nat} (hwidth : width ≤ 4) (groups : List UInt16) :
    (groups.map fun g => Text.ofHex width g.toNat).mapM readGroup = .ok groups := by
  induction groups with
  | nil => rfl
  | cons g groups ih =>
    rw [List.map_cons, List.mapM_cons, readGroup_ofHex hwidth, ih]
    rfl

theorem readGroups_hexGroups {width : Nat} (hwidth : width ≤ 4) (g : Groups) :
    readGroups (hexGroups width g.toList) = .ok g := by
  obtain ⟨a, b, c, d, e, f, h, i, rfl⟩ := exists_groups g
  let parts := [a, b, c, d, e, f, h, i].map fun g => Text.ofHex width g.toNat
  have hsplit : (hexGroups width [a, b, c, d, e, f, h, i]).splitOn (.scalar ':') = parts :=
    splitOn_hexGroups width (by simp)
  have hdigits : ∀ part ∈ parts, ∀ d ∈ part, isHexDigit d := fun part hpart => by
    obtain ⟨g, -, rfl⟩ := List.mem_map.1 hpart
    exact isHexDigit_ofHex _ _
  have hquad : expandQuad parts = .ok parts := by
    refine expandQuad_of_not_mem fun part hpart hdot => ?_
    exact absurd (hdigits part hpart _ hdot) (by decide)
  have hhalves : halves parts = .ok (parts, []) := by
    have hgaps : gaps parts = [] := by
      refine gaps_eq_nil fun part hpart => ?_
      obtain ⟨g, -, rfl⟩ := List.mem_map.1 hpart
      exact ofHex_ne_nil _ _
    unfold halves
    rw [hgaps]
    simp [parts, ofHex_ne_nil]
  have hread : parts.mapM readGroup = .ok [a, b, c, d, e, f, h, i] := mapM_readGroup hwidth _
  unfold readGroups
  simp only [Vector.toList_mk, hsplit]
  rw [hquad]
  simp only [bind, Except.bind, hhalves, hread]
  rfl

/-! ### Addresses -/

theorem not_mem_quadToText {c : Character} (q : Quad) (hc : isHexDigit c = false) (hne : c ≠ '.') :
    c ∉ q.toText := by
  refine not_mem_join ?_ hc hne
  intro part hpart d hd
  obtain ⟨o, -, rfl⟩ := List.mem_map.1 hpart
  exact isHexDigit_ofNat _ _ hd

theorem ofText?_toText (q : Quad) : ofText? q.toText = some (.v4 q) := by
  have hslash : Character.scalar '/' ∉ q.toText := not_mem_quadToText q (by decide) (by decide)
  rw [ofText?, if_neg (by simpa using hslash), readQuad_toText]

theorem readQuad_of_not_mem {t : Text} (h : Character.scalar '.' ∉ t) :
    readQuad t = .error .octetCount := by
  unfold readQuad
  rw [List.splitOn_eq_singleton h]

theorem splitScope?_of_not_mem {t : Text} (h : Character.scalar '%' ∉ t) : splitScope? t = some
    (t, none) := by
  unfold splitScope?
  rw [List.splitOn_eq_singleton h]

/-- A text without dots, slashes and percent signs is read as an IPv6 address. -/
theorem ofText?_of_readGroups {t : Text} {g : Groups} (hslash : Character.scalar '/' ∉ t)
    (hdot : Character.scalar '.' ∉ t)
    (hpercent : Character.scalar '%' ∉ t) (hread : readGroups t = .ok g) :
    ofText? t = some (.v6 g none) := by
  rw [ofText?, if_neg (by simpa using hslash), readQuad_of_not_mem hdot,
    splitScope?_of_not_mem hpercent]
  simp only [hread]

theorem ofText?_hexGroups {width : Nat} (hwidth : width ≤ 4) (g : Groups) :
    ofText? (hexGroups width g.toList) = some (.v6 g none) :=
  ofText?_of_readGroups (not_mem_hexGroups _ _ (by decide) (by decide))
    (not_mem_hexGroups _ _ (by decide) (by decide)) (not_mem_hexGroups _ _ (by decide) (by decide))
    (readGroups_hexGroups hwidth g)

/-- An address with a name for its pointers has a text that denotes it. -/
theorem exists_ofText? {client : Address} {name : Text} (h : client.pointerName? = some name) :
    ∃ text, ofText? text = some client := by
  cases client with
  | v4 q => exact ⟨_, ofText?_toText q⟩
  | v6 g scope =>
    cases scope with
    | none => exact ⟨_, ofText?_hexGroups (by decide : 1 ≤ 4) g⟩
    | some scope => cases h

end SenderPolicy.Address
