import SenderPolicy.MacroString.Scan
import SenderPolicy.Proofs.MacroString.Transformation

/-! Encoded values of macro letters.  A transformation that encodes selects the same parts as one
that does not, and its result is read back as that of the other.  So nothing is lost, labels remain
labels, and what else could separate parts is gone. -/

namespace SenderPolicy.Transformation

/-- Where there is an encoded result there is a plain one, which it encodes. -/
theorem exists_plain_of_encoded {m : Transformation} {value x : Text}
    (h : transform? { m with urlEncode := true } value = .ok x) :
    ∃ y, transform? { m with urlEncode := false } value = .ok y ∧ y.percentEncode? = .ok x := by
  have hparts : parts? { m with urlEncode := true } value =
      parts? { m with urlEncode := false } value := rfl
  unfold transform? at h ⊢
  rw [hparts] at h
  cases hcut : parts? { m with urlEncode := false } value with
  | none => rw [hcut] at h; cases h
  | some parts =>
    rw [hcut] at h
    have hjoined : (Text.join ['.'] (m.kept (m.ordered parts))).percentEncode?.mapError
        Fault.unencodable = .ok x := h
    exact ⟨_, rfl, eq_ok_of_mapError hjoined⟩

theorem delimiter_of_unreserved {c : Character} (hdelimiter : c ∈ MacroString.delimiters)
    (h : Text.isUnreserved c ∨ c = '%') : c = '.' ∨ c = '-' ∨ c = '_' := by
  simp only [MacroString.delimiters, List.mem_cons, List.not_mem_nil, or_false] at hdelimiter
  rcases hdelimiter with rfl | rfl | rfl | rfl | rfl | rfl | rfl <;> revert h <;> decide

/-- The encoded value `x` of a letter is unreserved characters and encoded bytes, and these are the
UTF-8 form of its plain value `y`, whatever `y` holds but surrogates.  It is `y` itself if there is
nothing to encode.  The parts are encoded one by one, so dots stay where they are, and no other
delimiter that is reserved is left. -/
theorem transform?_encoded_exact (m : Transformation) (h : m.delimiters ≠ []) (value : Text)
    (hvalue : ∀ c ∈ value, c.isScalar) :
    ∃ y x, transform? { m with urlEncode := false } value = .ok y ∧
      transform? { m with urlEncode := true } value = .ok x ∧
      Text.IsPercentEncoded x ∧ Utf8.decode (Text.percentDecode x) = .ok y ∧
      (x = y ↔ ∀ c ∈ y, Text.isUnreserved c) ∧
      y = Text.join ['.'] (m.selected value) ∧
      (∃ encoded, (m.selected value).mapM Text.percentEncode? = .ok encoded ∧
        x = Text.join ['.'] encoded) ∧
      x.count (.scalar '.') = y.count (.scalar '.') ∧
      (∀ (other : Transformation) (otherValue z : Text),
        transform? { other with urlEncode := false } otherValue = .ok z →
        transform? { other with urlEncode := true } otherValue = .ok x → z = y) ∧
      ∀ c ∈ x, c ∈ MacroString.delimiters → c = '.' ∨ c = '-' ∨ c = '_' := by
  have hdot : Text.isUnreserved '.' := by decide
  have hdigit : Character.scalar '.' ∉ Text.upperHexDigits := by decide
  obtain ⟨scalars, hselected, hparts⟩ := Text.exists_parts_of_isScalar
    fun part hpart c hc => hvalue c (mem_of_mem_selected (m := m) hpart hc)
  have hjoin : Text.join ['.'] (m.selected value) = Text.ofChars (['.'].intercalate scalars) := by
    rw [hselected, Text.ofChars_intercalate]
  have hx : transform? { m with urlEncode := true } value =
      .ok (Text.percentEncode (['.'].intercalate scalars)) := by
    rw [transform?_eq_ite (m := { m with urlEncode := true }) h, if_pos rfl]
    show (Text.join ['.'] (m.selected value)).percentEncode?.mapError _ = _
    rw [hjoin, Text.percentEncode?_ofChars]
    rfl
  have hencoded := Text.isPercentEncoded_percentEncode (['.'].intercalate scalars)
  refine ⟨_, _, transform?_plain h value, hx, hencoded, ?_, ?_, rfl,
    ⟨_, hparts, Text.percentEncode_intercalate '.' hdot _⟩, ?_, ?_, ?_⟩
  · rw [Text.decode_percentEncode, hjoin]
  · rw [hjoin]
    exact Text.percentEncode_eq_ofChars_iff
  · rw [hjoin]
    exact Text.count_percentEncode hdot hdigit _
  · intro other otherValue z hplain hx
    obtain ⟨y, hy, hsame⟩ := exists_plain_of_encoded hx
    rw [hplain] at hy
    obtain rfl := Except.ok.inj hy
    rw [hjoin]
    exact Text.eq_ofChars_of_percentEncode? hsame
  · intro c hc hdelimiter
    exact delimiter_of_unreserved hdelimiter (hencoded.mem hc)

/-- A value that is encoded in part already is encoded once more and read back. -/
theorem transform?_encoded_exact_percent :
    let m : Transformation := { truncation := some 2 }
    let value : Text := "www.\u00fc/%2F.a~b"
    let y : Text := "\u00fc/%2F.a~b"
    let x : Text := "%C3%BC%2F%252F.a~b"
    m.delimiters ≠ [] ∧ (∀ c ∈ value, c.isScalar) ∧
      transform? { m with urlEncode := false } value = .ok y ∧
      transform? { m with urlEncode := true } value = .ok x ∧
      Utf8.decode (Text.percentDecode x) = .ok y ∧ x ≠ y ∧ x.count (.scalar '.') = 1 := by
  intro m value y x
  have hdelimiters : m.delimiters ≠ [] := by decide
  have hvalue : ∀ c ∈ value, c.isScalar := Text.isScalar_of_mem_ofChars
  have hy : transform? { m with urlEncode := false } value = .ok y := by rfl
  have hx : transform? { m with urlEncode := true } value = .ok x := by rfl
  obtain ⟨plain, encoded, hplain, hencoded, -, hread, hself, -, -, hcount, -⟩ :=
    transform?_encoded_exact m hdelimiters value hvalue
  obtain rfl : y = plain := Except.ok.inj (hy.symm.trans hplain)
  obtain rfl : x = encoded := Except.ok.inj (hx.symm.trans hencoded)
  refine ⟨hdelimiters, hvalue, hy, hx, hread, ?_, hcount.trans (by decide)⟩
  intro hsame
  exact absurd (hself.1 hsame '/' (by decide)) (by decide)

end SenderPolicy.Transformation
