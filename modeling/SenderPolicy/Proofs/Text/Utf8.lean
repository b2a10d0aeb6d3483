import Mathlib.Data.List.TakeWhile
import SenderPolicy.Text.Utf8

/-! Reading of UTF-8.  The first byte of a character announces how many bytes follow and which
values the next one may have; the bytes that follow hold six bits each.  So the form of every
character is read back, and with it that of every text.  Nothing else is read: what is announced can
only be completed to the form of a character, so bytes that are read are the form of their text. -/

namespace SenderPolicy

namespace Utf8

variable {n bits offset start : Nat} {byte : UInt8} {next : UInt8 × UInt8}
  {later : List (UInt8 × UInt8)} {bytes : Bytes}

/-! ### First bytes -/

theorem announced_ascii (h : n < 0x80) : announced (UInt8.ofNat n) = some (n, []) := by
  have hbyte : (UInt8.ofNat n).toNat = n := UInt8.toNat_ofNat_of_lt' (by simp [UInt8.size]; omega)
  have hlow : UInt8.ofNat n < 0x80 := by
    rw [UInt8.lt_iff_toNat_lt, hbyte]
    exact h
  rw [announced, if_pos hlow, hbyte]

theorem announced_two (hlow : 2 ≤ n) (h : n < 0x20) :
    announced (UInt8.ofNat (n + 0xc0)) = some (n, [(0x80, 0xbf)]) := by
  have hall : ∀ n : Fin 0x20, 2 ≤ n.val →
      announced (UInt8.ofNat (n.val + 0xc0)) = some (n.val, [(0x80, 0xbf)]) := by
    decide
  exact hall ⟨n, h⟩ hlow

/-- The bounds of the second of three bytes exclude what has a shorter form, and surrogates. -/
def secondOfThree (n : Nat) : UInt8 × UInt8 :=
  (if n = 0 then 0xa0 else 0x80, if n = 0xd then 0x9f else 0xbf)

theorem announced_three : ∀ n < 0x10,
    announced (UInt8.ofNat (n + 0xe0)) = some (n, [secondOfThree n, (0x80, 0xbf)]) := by
  decide

/-- The bounds of the second of four bytes exclude what has a shorter form, and what is no code
point. -/
def secondOfFour (n : Nat) : UInt8 × UInt8 :=
  (if n = 0 then 0x90 else 0x80, if n = 4 then 0x8f else 0xbf)

theorem announced_four : ∀ n < 5,
    announced (UInt8.ofNat (n + 0xf0)) =
      some (n, [secondOfFour n, (0x80, 0xbf), (0x80, 0xbf)]) := by
  decide

/-! ### Bytes that follow -/

/-- A byte that follows with six bits of `n` in it is within bounds. -/
def Fits (n : Nat) (bounds : UInt8 × UInt8) : Prop :=
  bounds.1.toNat ≤ n % 0x40 + 0x80 ∧ n % 0x40 + 0x80 ≤ bounds.2.toNat

theorem fits_tail (n : Nat) : Fits n (0x80, 0xbf) := by
  have hn : n % 0x40 < 0x40 := Nat.mod_lt n (by decide)
  constructor
  · show 0x80 ≤ n % 0x40 + 0x80
    omega
  · show n % 0x40 + 0x80 ≤ 0xbf
    omega

theorem fits_secondOfThree (hlow : 0x7ff < n) (hhigh : n ≤ 0xffff)
    (hsurrogate : n < 0xd800 ∨ 0xdfff < n) : Fits (n / 64) (secondOfThree (n / 4096)) := by
  constructor
  · show (if n / 4096 = 0 then (0xa0 : UInt8) else 0x80).toNat ≤ _
    split
    · show 0xa0 ≤ n / 64 % 0x40 + 0x80
      omega
    · show 0x80 ≤ n / 64 % 0x40 + 0x80
      omega
  · show _ ≤ (if n / 4096 = 0xd then (0x9f : UInt8) else 0xbf).toNat
    split
    · show n / 64 % 0x40 + 0x80 ≤ 0x9f
      omega
    · show n / 64 % 0x40 + 0x80 ≤ 0xbf
      omega

theorem fits_secondOfFour (hlow : 0xffff < n) (hhigh : n < 0x110000) :
    Fits (n / 4096) (secondOfFour (n / 262144)) := by
  constructor
  · show (if n / 262144 = 0 then (0x90 : UInt8) else 0x80).toNat ≤ _
    split
    · show 0x90 ≤ n / 4096 % 0x40 + 0x80
      omega
    · show 0x80 ≤ n / 4096 % 0x40 + 0x80
      omega
  · show _ ≤ (if n / 262144 = 4 then (0x8f : UInt8) else 0xbf).toNat
    split
    · show n / 4096 % 0x40 + 0x80 ≤ 0x8f
      omega
    · show n / 4096 % 0x40 + 0x80 ≤ 0xbf
      omega

theorem toNat_following (n : Nat) : (UInt8.ofNat (n % 0x40 + 0x80)).toNat = n % 0x40 + 0x80 :=
  UInt8.toNat_ofNat_of_lt' (by simp [UInt8.size]; omega)

theorem decodeFrom_first {announcing : Nat} (h : announced (UInt8.ofNat announcing) =
      some (bits, next :: later)) :
    decodeFrom offset none (UInt8.ofNat announcing :: bytes) =
      decodeFrom (offset + 1) (some ⟨offset, UInt8.ofNat announcing, bits, next, later⟩) bytes := by
  rw [decodeFrom, h]

theorem within_of_fits (h : Fits n next) :
    next.1 ≤ UInt8.ofNat (n % 0x40 + 0x80) ∧ UInt8.ofNat (n % 0x40 + 0x80) ≤ next.2 := by
  rw [UInt8.le_iff_toNat_le, UInt8.le_iff_toNat_le, toNat_following]
  exact h

theorem decodeFrom_following (h : Fits n next) {after : UInt8 × UInt8} :
    decodeFrom offset (some ⟨start, byte, bits, next, after :: later⟩)
        (UInt8.ofNat (n % 0x40 + 0x80) :: bytes) =
      decodeFrom (offset + 1) (some ⟨start, byte, bits * 0x40 + n % 0x40, after, later⟩) bytes := by
  have hbits : (n % 0x40 + 0x80) % 0x40 = n % 0x40 := by omega
  rw [decodeFrom, if_pos (within_of_fits h), toNat_following]
  dsimp only
  rw [hbits]

theorem decodeFrom_last (h : Fits n next) :
    decodeFrom offset (some ⟨start, byte, bits, next, []⟩)
        (UInt8.ofNat (n % 0x40 + 0x80) :: bytes) =
      (decodeFrom (offset + 1) none bytes).map (Char.ofNat (bits * 0x40 + n % 0x40) :: ·) := by
  have hbits : (n % 0x40 + 0x80) % 0x40 = n % 0x40 := by omega
  rw [decodeFrom, if_pos (within_of_fits h), toNat_following]
  dsimp only
  rw [hbits]

/-! ### Texts -/

/-- The bytes of a character are read as that character, and then come those after it. -/
theorem decodeFrom_utf8EncodeChar (c : Char) (offset : Nat) (bytes : Bytes) :
    decodeFrom offset none (String.utf8EncodeChar c ++ bytes) =
      (decodeFrom (offset + (String.utf8EncodeChar c).length) none bytes).map (c :: ·) := by
  have hvalid : c.val.toNat < 0xd800 ∨ 0xdfff < c.val.toNat ∧ c.val.toNat < 0x110000 := c.valid
  have hchar {n : Nat} (h : n = c.val.toNat) : Char.ofNat n = c := h ▸ Char.ofNat_toNat c
  unfold String.utf8EncodeChar
  generalize c.val.toNat = v at hvalid hchar
  dsimp only
  by_cases hone : v ≤ 0x7f
  · rw [if_pos hone, List.singleton_append, decodeFrom, announced_ascii (by omega)]
    simp only [hchar rfl, List.length_singleton]
  rw [if_neg hone]
  by_cases htwo : v ≤ 0x7ff
  · rw [if_pos htwo]
    have hfirst := announced_two (n := v / 64 % 0x20) (by omega) (by omega)
    simp only [List.cons_append, List.nil_append]
    rw [decodeFrom_first hfirst, decodeFrom_last (fits_tail v), hchar (by omega)]
    rfl
  rw [if_neg htwo]
  by_cases hthree : v ≤ 0xffff
  · rw [if_pos hthree]
    have hbits : v / 4096 % 0x10 = v / 4096 := by omega
    have hfirst := announced_three (v / 4096) (by omega)
    have hsecond := fits_secondOfThree (n := v) (by omega) hthree (by omega)
    simp only [List.cons_append, List.nil_append, hbits]
    rw [decodeFrom_first hfirst, decodeFrom_following hsecond, decodeFrom_last (fits_tail v),
      hchar (by omega)]
    rfl
  · rw [if_neg hthree]
    have hbits : v / 262144 % 0x08 = v / 262144 := by omega
    have hfirst := announced_four (v / 262144) (by omega)
    have hsecond := fits_secondOfFour (n := v) (by omega) (by omega)
    simp only [List.cons_append, List.nil_append, hbits]
    rw [decodeFrom_first hfirst, decodeFrom_following hsecond,
      decodeFrom_following (fits_tail (v / 64)), decodeFrom_last (fits_tail v), hchar (by omega)]
    rfl

theorem decodeFrom_encode (t : List Char) (offset : Nat) :
    decodeFrom offset none (encode t) = .ok t := by
  induction t generalizing offset with
  | nil => rfl
  | cons c t ih =>
    rw [encode, List.flatMap_cons, decodeFrom_utf8EncodeChar]
    show (decodeFrom _ none (encode t)).map (c :: ·) = _
    rw [ih]
    rfl

/-! ### Bytes that are read -/

section Forms

variable {b c d : UInt8} {front : Bytes} {bounds : List (UInt8 × UInt8)} {t : List Char}

theorem toNat_charOfNat (h : n < 0xd800 ∨ 0xdfff < n ∧ n < 0x110000) :
    (Char.ofNat n).val.toNat = n := by
  rw [Char.ofNat, dif_pos (by exact h)]
  rfl

/-- A byte that holds the last six bits of a character, or six bits in its middle. -/
def IsFollowing (b : UInt8) : Prop := 0x80 ≤ b.toNat ∧ b.toNat ≤ 0xbf

theorem isFollowing_of_within (hlow : 0x80 ≤ b) (hhigh : b ≤ 0xbf) : IsFollowing b :=
  ⟨UInt8.le_iff_toNat_le.1 hlow, UInt8.le_iff_toNat_le.1 hhigh⟩

theorem within_secondOfThree (hlow : (secondOfThree n).1 ≤ b) (hhigh : b ≤ (secondOfThree n).2) :
    IsFollowing b ∧ (n = 0 → 0xa0 ≤ b.toNat) ∧ (n = 0xd → b.toNat ≤ 0x9f) := by
  simp only [secondOfThree, UInt8.le_iff_toNat_le] at hlow hhigh
  unfold IsFollowing
  by_cases hshort : n = 0
  · simp only [hshort, reduceIte, UInt8.reduceToNat, Nat.reduceEqDiff] at hlow hhigh
    omega
  by_cases hsurrogate : n = 0xd
  · simp only [hsurrogate, reduceIte, UInt8.reduceToNat, Nat.reduceEqDiff] at hlow hhigh
    omega
  · simp only [hshort, hsurrogate, if_false, UInt8.reduceToNat] at hlow hhigh
    omega

theorem within_secondOfFour (hlow : (secondOfFour n).1 ≤ b) (hhigh : b ≤ (secondOfFour n).2) :
    IsFollowing b ∧ (n = 0 → 0x90 ≤ b.toNat) ∧ (n = 4 → b.toNat ≤ 0x8f) := by
  simp only [secondOfFour, UInt8.le_iff_toNat_le] at hlow hhigh
  unfold IsFollowing
  by_cases hshort : n = 0
  · simp only [hshort, reduceIte, UInt8.reduceToNat, Nat.reduceEqDiff] at hlow hhigh
    omega
  by_cases hlast : n = 4
  · simp only [hlast, reduceIte, UInt8.reduceToNat, Nat.reduceEqDiff] at hlow hhigh
    omega
  · simp only [hshort, hlast, if_false, UInt8.reduceToNat] at hlow hhigh
    omega

theorem utf8EncodeChar_one (hn : n < 0x80) :
    String.utf8EncodeChar (Char.ofNat n) = [UInt8.ofNat n] := by
  unfold String.utf8EncodeChar
  rw [toNat_charOfNat (by omega)]
  dsimp only
  rw [if_pos (by omega)]

theorem utf8EncodeChar_two (hlow : 2 ≤ n) (hhigh : n < 0x20) (hb : IsFollowing b) :
    String.utf8EncodeChar (Char.ofNat (n * 0x40 + b.toNat % 0x40)) =
      [UInt8.ofNat (n + 0xc0), b] := by
  obtain ⟨hblow, hbhigh⟩ := hb
  unfold String.utf8EncodeChar
  rw [toNat_charOfNat (by omega)]
  generalize hv : n * 0x40 + b.toNat % 0x40 = v
  have hfirst : v / 64 % 32 = n := by omega
  have hsecond : v % 64 + 128 = b.toNat := by omega
  dsimp only
  rw [if_neg (by omega), if_pos (by omega), hfirst, hsecond, UInt8.ofNat_toNat]

theorem utf8EncodeChar_three (hn : n < 0x10) (hb : IsFollowing b) (hc : IsFollowing c)
    (hshort : n = 0 → 0xa0 ≤ b.toNat) (hsurrogate : n = 0xd → b.toNat ≤ 0x9f) :
    String.utf8EncodeChar
        (Char.ofNat ((n * 0x40 + b.toNat % 0x40) * 0x40 + c.toNat % 0x40)) =
      [UInt8.ofNat (n + 0xe0), b, c] := by
  obtain ⟨hblow, hbhigh⟩ := hb
  obtain ⟨hclow, hchigh⟩ := hc
  unfold String.utf8EncodeChar
  rw [toNat_charOfNat (by omega)]
  generalize hv : (n * 0x40 + b.toNat % 0x40) * 0x40 + c.toNat % 0x40 = v
  have hfirst : v / 4096 % 16 = n := by omega
  have hsecond : v / 64 % 64 + 128 = b.toNat := by omega
  have hthird : v % 64 + 128 = c.toNat := by omega
  dsimp only
  rw [if_neg (by omega), if_neg (by omega), if_pos (by omega), hfirst, hsecond, hthird,
    UInt8.ofNat_toNat, UInt8.ofNat_toNat]

theorem utf8EncodeChar_four (hn : n < 5) (hb : IsFollowing b) (hc : IsFollowing c)
    (hd : IsFollowing d) (hshort : n = 0 → 0x90 ≤ b.toNat) (hlast : n = 4 → b.toNat ≤ 0x8f) :
    String.utf8EncodeChar (Char.ofNat
        (((n * 0x40 + b.toNat % 0x40) * 0x40 + c.toNat % 0x40) * 0x40 + d.toNat % 0x40)) =
      [UInt8.ofNat (n + 0xf0), b, c, d] := by
  obtain ⟨hblow, hbhigh⟩ := hb
  obtain ⟨hclow, hchigh⟩ := hc
  obtain ⟨hdlow, hdhigh⟩ := hd
  unfold String.utf8EncodeChar
  rw [toNat_charOfNat (by omega)]
  generalize hv : ((n * 0x40 + b.toNat % 0x40) * 0x40 + c.toNat % 0x40) * 0x40 +
    d.toNat % 0x40 = v
  have hfirst : v / 262144 % 8 = n := by omega
  have hsecond : v / 4096 % 64 + 128 = b.toNat := by omega
  have hthird : v / 64 % 64 + 128 = c.toNat := by omega
  have hfourth : v % 64 + 128 = d.toNat := by omega
  dsimp only
  rw [if_neg (by omega), if_neg (by omega), if_neg (by omega), hfirst, hsecond, hthird, hfourth,
    UInt8.ofNat_toNat, UInt8.ofNat_toNat, UInt8.ofNat_toNat]

/-- Whatever bytes within the bounds come after `front`, the character that they complete has
`front` and these bytes for its form. -/
def Completes (front : Bytes) (bits : Nat) : List (UInt8 × UInt8) → Prop
  | [] => String.utf8EncodeChar (Char.ofNat bits) = front
  | next :: later => ∀ b, next.1 ≤ b → b ≤ next.2 →
      Completes (front ++ [b]) (bits * 0x40 + b.toNat % 0x40) later

theorem range_of_announced (h : announced byte = some (bits, bounds)) :
    byte.toNat < 0x80 ∨ 0xc2 ≤ byte.toNat ∧ byte.toNat ≤ 0xf4 := by
  have hall : ∀ n : Fin 256, (announced (UInt8.ofNat n.val)).isSome →
      n.val < 0x80 ∨ 0xc2 ≤ n.val ∧ n.val ≤ 0xf4 := by
    decide +kernel
  have hbyte := hall ⟨byte.toNat, UInt8.toNat_lt byte⟩
  rw [UInt8.ofNat_toNat, h] at hbyte
  exact hbyte rfl

theorem completes_of_announced (h : announced byte = some (bits, bounds)) :
    Completes [byte] bits bounds := by
  have hrange := range_of_announced h
  rw [← UInt8.ofNat_toNat (x := byte)] at h ⊢
  generalize byte.toNat = v at h hrange
  -- One case for each length of a form.
  by_cases hone : v < 0x80
  · rw [announced_ascii hone] at h
    cases h
    exact utf8EncodeChar_one hone
  by_cases htwo : v < 0xe0
  · obtain ⟨n, rfl⟩ : ∃ n, v = n + 0xc0 := ⟨v - 0xc0, by omega⟩
    rw [announced_two (by omega) (by omega)] at h
    cases h
    intro b hlow hhigh
    exact utf8EncodeChar_two (by omega) (by omega) (isFollowing_of_within hlow hhigh)
  by_cases hthree : v < 0xf0
  · obtain ⟨n, rfl⟩ : ∃ n, v = n + 0xe0 := ⟨v - 0xe0, by omega⟩
    rw [announced_three n (by omega)] at h
    cases h
    intro b hlow hhigh c hclow hchigh
    obtain ⟨hb, hshort, hsurrogate⟩ := within_secondOfThree hlow hhigh
    exact utf8EncodeChar_three (by omega) hb (isFollowing_of_within hclow hchigh) hshort
      hsurrogate
  · obtain ⟨n, rfl⟩ : ∃ n, v = n + 0xf0 := ⟨v - 0xf0, by omega⟩
    rw [announced_four n (by omega)] at h
    cases h
    intro b hlow hhigh c hclow hchigh d hdlow hdhigh
    obtain ⟨hb, hshort, hlast⟩ := within_secondOfFour hlow hhigh
    exact utf8EncodeChar_four (by omega) hb (isFollowing_of_within hclow hchigh)
      (isFollowing_of_within hdlow hdhigh) hshort hlast

/-- The bytes `front` are what has been read of the character that has begun, if one has. -/
def Begun (front : Bytes) : Option Partial → Prop
  | none => front = []
  | some p => Completes front p.bits (p.next :: p.later)

theorem begun_none : Begun [] none := rfl

theorem encode_of_map {rest : Except Fault (List Char)}
    (h : rest.map (Char.ofNat bits :: ·) = .ok t)
    (hfront : Completes front bits [])
    (hrest : ∀ later, rest = .ok later → encode later = bytes) :
    encode t = front ++ bytes := by
  cases rest with
  | error fault => cases h
  | ok later =>
    obtain rfl := Except.ok.inj h
    have hchar : String.utf8EncodeChar (Char.ofNat bits) = front := hfront
    rw [encode, List.flatMap_cons, hchar, ← hrest later rfl, encode]

/-- The text that is read has for its form the bytes of the character that has begun, and those
after them. -/
theorem encode_of_decodeFrom {pending : Option Partial} (hfront : Begun front pending)
    (h : decodeFrom offset pending bytes = .ok t) : encode t = front ++ bytes := by
  fun_induction decodeFrom offset pending bytes generalizing front t with
  | case1 =>
    obtain rfl : front = [] := hfront
    obtain rfl := Except.ok.inj h
    rfl
  | case2 => cases h
  | case3 => cases h
  | case4 offset b bytes bits hannounced ih =>
    obtain rfl : front = [] := hfront
    have hchar : Completes [b] bits [] := completes_of_announced hannounced
    rw [encode_of_map h hchar fun later => ih begun_none]
    rfl
  | case5 offset b bytes bits next later hannounced ih =>
    obtain rfl : front = [] := hfront
    exact ih (completes_of_announced hannounced) h
  | case6 offset p b bytes hwithin bits hlater =>
    rename_i ih
    have hchar := hfront b hwithin.1 hwithin.2
    rw [hlater] at hchar
    rw [encode_of_map h hchar fun later => ih begun_none, List.append_assoc]
    rfl
  | case7 offset p b bytes hwithin bits next later hlater =>
    rename_i ih
    have hnext := hfront b hwithin.1 hwithin.2
    rw [hlater] at hnext
    rw [ih hnext h, List.append_assoc]
    rfl
  | case8 => cases h

end Forms

end Utf8

namespace Text

/-! ### Surrogates -/

theorem encodeFault?_eq_none_iff {t : Text} : t.encodeFault? = none ↔ ∀ c ∈ t, c.isScalar := by
  rw [← List.dropWhile_eq_nil_iff, encodeFault?]
  split
  · next h => exact iff_of_true rfl h
  · next first rest h => simp [h]

theorem isScalar_of_mem_ofChars {cs : List Char} : ∀ c ∈ ofChars cs, c.isScalar := by
  intro c hc
  obtain ⟨d, -, rfl⟩ := List.mem_map.1 hc
  rfl

theorem filterMap_ofChars (cs : List Char) : (ofChars cs).filterMap Character.scalar? = cs := by
  induction cs with
  | nil => rfl
  | cons c cs ih => simp [Character.scalar?, ih]

theorem ofChars_filterMap {t : Text} (h : ∀ c ∈ t, c.isScalar) :
    ofChars (t.filterMap Character.scalar?) = t := by
  induction t with
  | nil => rfl
  | cons c t ih =>
    obtain ⟨hc, ht⟩ := List.forall_mem_cons.1 h
    cases c with
    | scalar c => simp [Character.scalar?, ih ht]
    | surrogate index => cases hc

/-- The scalar values of a text make it, and a text that is not made of some has none. -/
theorem scalars?_eq_ok_iff {t : Text} {cs : List Char} : t.scalars? = .ok cs ↔ t = ofChars cs := by
  unfold scalars?
  constructor
  · intro h
    split at h
    · cases h
    · next hnone =>
      obtain rfl := Except.ok.inj h
      exact (ofChars_filterMap (encodeFault?_eq_none_iff.1 hnone)).symm
  · rintro rfl
    rw [encodeFault?_eq_none_iff.2 isScalar_of_mem_ofChars]
    exact congrArg Except.ok (filterMap_ofChars cs)

/-- What has scalar values is what holds no surrogates. -/
theorem exists_ofChars_iff {t : Text} : (∃ cs, t = ofChars cs) ↔ ∀ c ∈ t, c.isScalar := by
  constructor
  · rintro ⟨cs, rfl⟩
    exact isScalar_of_mem_ofChars
  · exact fun h => ⟨_, (ofChars_filterMap h).symm⟩

theorem scalars?_ofChars (cs : List Char) : (ofChars cs).scalars? = .ok cs :=
  scalars?_eq_ok_iff.2 rfl

theorem ofChars_injective : Function.Injective ofChars := fun cs ds h => by
  rw [← filterMap_ofChars cs, h, filterMap_ofChars]

end Text

namespace Utf8

variable {bytes : Bytes} {t : Text}

theorem decode_encode (cs : List Char) : decode (encode cs) = .ok (Text.ofChars cs) := by
  rw [decode, decodeFrom_encode]
  rfl

/-- Bytes are read as the text whose form they are, and bytes that are the form of no text are not
read. -/
theorem decode_eq_ok_iff : decode bytes = .ok t ↔ t.toUtf8? = .ok bytes := by
  constructor
  · intro h
    cases hread : decodeFrom 0 none bytes with
    | error fault => rw [decode, hread] at h; cases h
    | ok cs =>
      rw [decode, hread] at h
      obtain rfl := Except.ok.inj h
      rw [Text.toUtf8?, Text.scalars?_ofChars]
      exact congrArg Except.ok (encode_of_decodeFrom begun_none hread)
  · intro h
    cases hscalars : t.scalars? with
    | error fault => rw [Text.toUtf8?, hscalars] at h; cases h
    | ok cs =>
      rw [Text.toUtf8?, hscalars] at h
      obtain rfl := Except.ok.inj h
      rw [decode_encode, Text.scalars?_eq_ok_iff.1 hscalars]

end Utf8

end SenderPolicy
