import SenderPolicy.Address.Reading
import SenderPolicy.Proofs.Text.Parts
import SenderPolicy.Proofs.Text.Utf8
import SenderPolicy.Text.PercentEncoded

/-! Percent-encoding loses nothing.  An encoded text is unreserved characters and triples of `%` and
two digits, and its bytes are those of the text that was encoded.  Each character is encoded for
itself, and dots stand for themselves, so the encoding of joined parts is the join of encoded
parts. -/

namespace SenderPolicy.Text

variable {c : Char} {cs : List Char} {t : Text}

/-- The hexadecimal digits of percent-encoding. -/
def upperHexDigits : Text := "0123456789ABCDEF"

/-- Unreserved characters, and triples of `%` and two digits. -/
inductive IsPercentEncoded : Text → Prop
  | nil : IsPercentEncoded []
  | unreserved {c : Character} {t : Text} :
      isUnreserved c → IsPercentEncoded t → IsPercentEncoded (c :: t)
  | byte {high low : Character} {t : Text} :
      high ∈ upperHexDigits → low ∈ upperHexDigits → IsPercentEncoded t →
      IsPercentEncoded (.scalar '%' :: high :: low :: t)

/-- The bytes of a text in which `%` with two hexadecimal digits, in either case, is a byte, and
every other scalar value stands for itself. -/
def percentDecode : Text → Bytes
  | .scalar '%' :: high :: low :: t =>
    if Address.isHexDigit high && Address.isHexDigit low then
      UInt8.ofNat (Address.valueIn 16 [high, low]) :: percentDecode t
    else Utf8.encode ['%'] ++ percentDecode (high :: low :: t)
  | c :: t => Utf8.encode c.scalar?.toList ++ percentDecode t
  | [] => []

/-! ### Digits -/

theorem upperHexDigit_mem : ∀ n < 16, upperHexDigit n ∈ upperHexDigits := by decide

theorem isUnreserved_of_mem_upperHexDigits : ∀ c ∈ upperHexDigits, isUnreserved c :=
  List.all_eq_true.1 (by decide)

theorem isHexDigit_of_mem_upperHexDigits : ∀ c ∈ upperHexDigits, Address.isHexDigit c :=
  List.all_eq_true.1 (by decide)

theorem digitValue_upperHexDigit :
    ∀ n < 16, Address.valueIn.digitValue (upperHexDigit n) = n := by
  decide

/-- The digits of a byte. -/
theorem percentByte_eq (b : UInt8) : ∃ high ∈ upperHexDigits, ∃ low ∈ upperHexDigits,
    percentByte b = [.scalar '%', high, low] ∧ Address.valueIn 16 [high, low] = b.toNat := by
  have hb := b.toNat_lt
  have hhigh : b.toNat / 16 < 16 := by omega
  have hlow : b.toNat % 16 < 16 := by omega
  refine ⟨_, upperHexDigit_mem _ hhigh, _, upperHexDigit_mem _ hlow, rfl, ?_⟩
  rw [Address.valueIn, List.foldl_cons, List.foldl_cons, List.foldl_nil,
    digitValue_upperHexDigit _ hhigh, digitValue_upperHexDigit _ hlow]
  omega

/-! ### Characters and texts -/

theorem percentChar_of_unreserved (h : isUnreserved c) : percentChar c = [↑c] := if_pos h

theorem percentChar_of_reserved (h : ¬ isUnreserved c) :
    percentChar c = (String.utf8EncodeChar c).flatMap percentByte := if_neg h

theorem percentEncode_cons (c : Char) (cs : List Char) :
    percentEncode (c :: cs) = percentChar c ++ percentEncode cs := List.flatMap_cons

/-! ### Shape -/

theorem isPercentEncoded_bytes_append (bytes : Bytes) (h : IsPercentEncoded t) :
    IsPercentEncoded (bytes.flatMap percentByte ++ t) := by
  induction bytes with
  | nil => exact h
  | cons b bytes ih =>
    obtain ⟨high, hhigh, low, hlow, hb, -⟩ := percentByte_eq b
    rw [List.flatMap_cons, hb]
    exact .byte hhigh hlow ih

theorem isPercentEncoded_percentEncode (cs : List Char) : IsPercentEncoded (percentEncode cs) := by
  induction cs with
  | nil => exact .nil
  | cons c cs ih =>
    rw [percentEncode_cons]
    by_cases hc : isUnreserved c
    · rw [percentChar_of_unreserved hc]
      exact .unreserved hc ih
    · rw [percentChar_of_reserved hc]
      exact isPercentEncoded_bytes_append _ ih

theorem IsPercentEncoded.mem {c : Character} (h : IsPercentEncoded t) (hc : c ∈ t) :
    isUnreserved c ∨ c = '%' := by
  induction h with
  | nil => cases hc
  | unreserved hd _ ih =>
    rcases List.mem_cons.1 hc with rfl | hc
    · exact .inl hd
    · exact ih hc
  | byte hhigh hlow _ ih =>
    rcases List.mem_cons.1 hc with rfl | hc
    · exact .inr rfl
    rcases List.mem_cons.1 hc with rfl | hc
    · exact .inl (isUnreserved_of_mem_upperHexDigits _ hhigh)
    rcases List.mem_cons.1 hc with rfl | hc
    · exact .inl (isUnreserved_of_mem_upperHexDigits _ hlow)
    · exact ih hc

/-! ### Decoding -/

theorem percentDecode_cons (hc : c ≠ '%') (t : Text) :
    percentDecode (.scalar c :: t) = String.utf8EncodeChar c ++ percentDecode t := by
  rw [percentDecode]
  · simp [Character.scalar?, Utf8.encode]
  · rintro high low t hpercent
    exact absurd (Character.scalar.inj hpercent) hc

theorem percentDecode_bytes_append (bytes : Bytes) (t : Text) :
    percentDecode (bytes.flatMap percentByte ++ t) = bytes ++ percentDecode t := by
  induction bytes with
  | nil => rfl
  | cons b bytes ih =>
    obtain ⟨high, hhigh, low, hlow, hb, hvalue⟩ := percentByte_eq b
    have hdigits : (Address.isHexDigit high && Address.isHexDigit low) = true := by
      rw [isHexDigit_of_mem_upperHexDigits _ hhigh, isHexDigit_of_mem_upperHexDigits _ hlow]
      rfl
    rw [List.flatMap_cons, hb]
    show percentDecode (.scalar '%' :: high :: low :: (bytes.flatMap percentByte ++ t)) = _
    rw [percentDecode, if_pos hdigits, hvalue, UInt8.ofNat_toNat, ih]
    rfl

/-- The bytes of an encoded text are those of the text. -/
theorem percentDecode_percentEncode (cs : List Char) :
    percentDecode (percentEncode cs) = Utf8.encode cs := by
  induction cs with
  | nil => rfl
  | cons c cs ih =>
    rw [percentEncode_cons]
    show _ = String.utf8EncodeChar c ++ Utf8.encode cs
    rw [← ih]
    by_cases hc : isUnreserved c
    · have hpercent : c ≠ '%' := by
        rintro rfl
        exact absurd hc (by decide)
      rw [percentChar_of_unreserved hc]
      exact percentDecode_cons hpercent _
    · rw [percentChar_of_reserved hc]
      exact percentDecode_bytes_append _ _

/-- An encoded text is read back. -/
theorem decode_percentEncode (cs : List Char) :
    Utf8.decode (percentDecode (percentEncode cs)) = .ok (ofChars cs) := by
  rw [percentDecode_percentEncode, Utf8.decode_encode]

theorem percentEncode_injective : Function.Injective percentEncode := by
  intro cs ds h
  have hread := decode_percentEncode cs
  rw [h, decode_percentEncode ds] at hread
  exact (ofChars_injective (Except.ok.inj hread)).symm

theorem percentEncode?_ofChars (cs : List Char) :
    (ofChars cs).percentEncode? = .ok (percentEncode cs) := by
  rw [percentEncode?, scalars?_ofChars]
  rfl

/-- A text is encoded if it holds no surrogates. -/
theorem exists_percentEncode?_iff :
    (∃ x, t.percentEncode? = .ok x) ↔ ∀ c ∈ t, c.isScalar := by
  rw [← exists_ofChars_iff]
  constructor
  · rintro ⟨x, hx⟩
    cases hscalars : t.scalars? with
    | error fault => rw [percentEncode?, hscalars] at hx; cases hx
    | ok cs => exact ⟨cs, scalars?_eq_ok_iff.1 hscalars⟩
  · rintro ⟨cs, rfl⟩
    exact ⟨_, percentEncode?_ofChars cs⟩

/-- Texts that are encoded to the same are the same. -/
theorem eq_ofChars_of_percentEncode? (h : t.percentEncode? = .ok (percentEncode cs)) :
    t = ofChars cs := by
  obtain ⟨ds, rfl⟩ := exists_ofChars_iff.2 (exists_percentEncode?_iff.1 ⟨_, h⟩)
  rw [percentEncode?_ofChars] at h
  rw [percentEncode_injective (Except.ok.inj h)]

/-! ### What stands for itself -/

theorem length_percentByte (b : UInt8) : (percentByte b).length = 3 := rfl

theorem three_le_length_percentChar (h : ¬ isUnreserved c) : 3 ≤ (percentChar c).length := by
  obtain ⟨b, bytes, hbytes⟩ := List.exists_cons_of_ne_nil (String.utf8EncodeChar_ne_nil (c := c))
  rw [percentChar_of_reserved h, hbytes, List.flatMap_cons, List.length_append,
    length_percentByte]
  omega

theorem length_le_length_percentEncode (cs : List Char) :
    cs.length ≤ (percentEncode cs).length := by
  induction cs with
  | nil => exact Nat.le_refl 0
  | cons c cs ih =>
    rw [percentEncode_cons, List.length_append, List.length_cons]
    by_cases hc : isUnreserved c
    · rw [percentChar_of_unreserved hc, List.length_singleton]
      omega
    · have hlength := three_le_length_percentChar hc
      omega

/-- A text stands for itself if its characters are unreserved, and is shorter otherwise. -/
theorem percentEncode_eq_ofChars_iff :
    percentEncode cs = ofChars cs ↔ ∀ c ∈ ofChars cs, isUnreserved c := by
  induction cs with
  | nil => exact iff_of_true rfl nofun
  | cons c cs ih =>
    rw [percentEncode_cons, ofChars_cons, List.forall_mem_cons, ← ih]
    by_cases hc : isUnreserved c
    · rw [percentChar_of_unreserved hc, List.singleton_append, List.cons_inj_right]
      exact (and_iff_right hc).symm
    · refine iff_of_false (fun h => ?_) fun h => hc h.1
      have hlength := congrArg List.length h
      rw [List.length_append, List.length_cons, ofChars, List.length_map] at hlength
      have hchar := three_le_length_percentChar hc
      have hrest := length_le_length_percentEncode cs
      omega

/-! ### Parts -/

theorem percentEncode_append (cs ds : List Char) :
    percentEncode (cs ++ ds) = percentEncode cs ++ percentEncode ds := List.flatMap_append

theorem percentEncode_intercalate (separator : Char) (h : isUnreserved separator)
    (parts : List (List Char)) :
    percentEncode ([separator].intercalate parts) =
      join [↑separator] (parts.map percentEncode) := by
  induction parts with
  | nil => rfl
  | cons part parts ih =>
    cases parts with
    | nil => simp [join]
    | cons next parts =>
      rw [List.map_cons, join_cons _ _ (by simp), List.intercalate_cons_cons,
        percentEncode_append, percentEncode_append, ih, percentEncode_cons,
        percentChar_of_unreserved h]
      simp [percentEncode]

theorem ofChars_intercalate (separator : Char) (parts : List (List Char)) :
    ofChars ([separator].intercalate parts) = join [↑separator] (parts.map ofChars) := by
  induction parts with
  | nil => rfl
  | cons part parts ih =>
    cases parts with
    | nil => simp [join]
    | cons next parts =>
      rw [List.map_cons, join_cons _ _ (by simp), List.intercalate_cons_cons, ← ih]
      simp [ofChars]

/-- Parts without surrogates are the texts of scalar values, and each is encoded for itself. -/
theorem exists_parts_of_isScalar {parts : List Text} (h : ∀ part ∈ parts, ∀ c ∈ part, c.isScalar) :
    ∃ scalars : List (List Char), parts = scalars.map ofChars ∧
      parts.mapM percentEncode? = .ok (scalars.map percentEncode) := by
  induction parts with
  | nil => exact ⟨[], rfl, rfl⟩
  | cons part parts ih =>
    obtain ⟨hpart, hparts⟩ := List.forall_mem_cons.1 h
    obtain ⟨cs, rfl⟩ := exists_ofChars_iff.2 hpart
    obtain ⟨scalars, rfl, hencoded⟩ := ih hparts
    refine ⟨cs :: scalars, rfl, ?_⟩
    rw [List.mapM_cons, percentEncode?_ofChars, hencoded]
    rfl

theorem not_mem_bytes {c : Character} (hpercent : c ≠ '%') (hdigit : c ∉ upperHexDigits)
    (bytes : Bytes) : c ∉ bytes.flatMap percentByte := by
  intro hc
  obtain ⟨b, -, hb⟩ := List.mem_flatMap.1 hc
  obtain ⟨high, hhigh, low, hlow, hbyte, -⟩ := percentByte_eq b
  rw [hbyte] at hb
  rcases List.mem_cons.1 hb with rfl | hb
  · exact hpercent rfl
  rcases List.mem_cons.1 hb with rfl | hb
  · exact hdigit hhigh
  · exact hdigit (List.mem_singleton.1 hb ▸ hlow)

/-- An unreserved character that is no digit of a byte is there as often as it was. -/
theorem count_percentEncode {c : Character} (h : isUnreserved c) (hdigit : c ∉ upperHexDigits)
    (cs : List Char) : (percentEncode cs).count c = (ofChars cs).count c := by
  have hpercent : c ≠ '%' := by
    rintro rfl
    exact absurd h (by decide)
  induction cs with
  | nil => rfl
  | cons d cs ih =>
    rw [percentEncode_cons, ofChars_cons, List.count_append, ih]
    by_cases hd : isUnreserved d
    · rw [percentChar_of_unreserved hd, ← List.count_append, List.singleton_append]
    · have hother : c ≠ d := fun hcd => hd (hcd ▸ h)
      have hnone := List.count_eq_zero.2 (not_mem_bytes hpercent hdigit (String.utf8EncodeChar d))
      rw [percentChar_of_reserved hd, hnone, Nat.zero_add, List.count_cons_of_ne hother.symm]

end SenderPolicy.Text
