import SenderPolicy.MacroString.Token
import SenderPolicy.Proofs.Text.PercentEncoded

/-! Transformation of the values of macro letters.  `Cut` says what it is to cut a value at
delimiters; there is one such cut of every value, and both ways to look for delimiters find it, in
whatever order and however often these are written. -/

namespace SenderPolicy.Transformation

/-- The parts of a value that is cut at every delimiter in it.  Parts may be empty. -/
inductive Cut (delimiters : Text) : Text → List Text → Prop
  | last {part : Text} : (∀ c ∈ part, c ∉ delimiters) → Cut delimiters part [part]
  | cons {part rest : Text} {d : Character} {parts : List Text} :
      (∀ c ∈ part, c ∉ delimiters) → d ∈ delimiters → Cut delimiters rest parts →
      Cut delimiters (part ++ d :: rest) (part :: parts)

variable {delimiters value : Text} {parts : List Text}

theorem Cut.ne_nil (h : Cut delimiters value parts) : parts ≠ [] := by
  cases h <;> simp

theorem Cut.eq_splitOnP (h : Cut delimiters value parts) :
    parts = value.splitOnP delimiters.contains := by
  induction h with
  | last hpart =>
    rw [List.splitOnP_eq_singleton]
    simpa using hpart
  | @cons part rest d parts hpart hd h ih =>
    rw [List.splitOnP_append_cons part rest (by simpa using hd), ← ih,
      List.splitOnP_eq_singleton (by simpa using hpart)]
    rfl

theorem exists_cut (delimiters value : Text) : ∃ parts, Cut delimiters value parts := by
  induction value with
  | nil => exact ⟨_, .last (by simp)⟩
  | cons c value ih =>
    obtain ⟨parts, hcut⟩ := ih
    by_cases hc : c ∈ delimiters
    · have hnone : ∀ d ∈ ([] : Text), d ∉ delimiters := by simp
      exact ⟨[] :: parts, .cons hnone hc hcut⟩
    · have hlonger {part : Text} (hpart : ∀ d ∈ part, d ∉ delimiters) :
          ∀ d ∈ c :: part, d ∉ delimiters := by
        simpa [hc] using hpart
      cases hcut with
      | last hpart => exact ⟨[c :: value], .last (hlonger hpart)⟩
      | @cons part rest d parts hpart hd hrest =>
        exact ⟨(c :: part) :: parts, .cons (hlonger hpart) hd hrest⟩

theorem cut_iff : Cut delimiters value parts ↔ parts = value.splitOnP delimiters.contains := by
  constructor
  · exact Cut.eq_splitOnP
  · rintro rfl
    obtain ⟨others, hcut⟩ := exists_cut delimiters value
    exact hcut.eq_splitOnP ▸ hcut

variable {m : Transformation}

theorem mem_parts_of_mem_selected {part : Text} (h : part ∈ m.selected value) :
    part ∈ m.parts value := by
  have hordered : part ∈ m.ordered (m.parts value) := by
    unfold selected kept at h
    split at h
    · exact h
    · unfold lastItems at h
      split at h
      · exact List.mem_of_mem_drop h
      · exact List.mem_of_mem_drop h
  unfold ordered at hordered
  split at hordered
  · exact List.mem_reverse.1 hordered
  · exact hordered

/-- What is selected is of the value itself. -/
theorem mem_of_mem_selected {part : Text} {c : Character} (hpart : part ∈ m.selected value)
    (hc : c ∈ part) : c ∈ value :=
  Text.mem_of_mem_splitOnP (mem_parts_of_mem_selected hpart) hc

/-- A value that is cut at its dots and joined again is as it was. -/
theorem join_selected_plain (value : Text) : Text.join ['.'] (selected {} value) = value := by
  show Text.join ['.'] (value.splitOnP [Character.scalar '.'].contains) = value
  rw [← splitOn_eq_splitOnP]
  exact List.intercalate_splitOn _

theorem eq_ok_of_mapError {result : Except EncodeFault Text} {text : Text}
    (h : result.mapError Fault.unencodable = .ok text) : result = .ok text := by
  cases result with
  | error fault => cases h
  | ok other => exact congrArg Except.ok (Except.ok.inj h)

theorem transform?_eq_ite (h : m.delimiters ≠ []) (value : Text) :
    m.transform? value =
      if m.urlEncode then (Text.join ['.'] (m.selected value)).percentEncode?.mapError .unencodable
      else .ok (Text.join ['.'] (m.selected value)) := by
  rw [transform?_eq_transform h, transform, rejoin]
  split <;> rfl

theorem transform?_plain (h : m.delimiters ≠ []) (value : Text) :
    transform? { m with urlEncode := false } value = .ok (Text.join ['.'] (m.selected value)) :=
  transform?_eq_ite (m := { m with urlEncode := false }) h value

/-- A value is transformed unless it has to be encoded and cannot be. -/
theorem exists_transform?_iff (h : m.delimiters ≠ []) (value : Text) :
    (∃ text, m.transform? value = .ok text) ↔
      (m.urlEncode → ∀ c ∈ Text.join ['.'] (m.selected value), c.isScalar) := by
  rw [transform?_eq_ite h]
  split
  · next hencode =>
    rw [← Text.exists_percentEncode?_iff, forall_prop_of_true hencode]
    cases (Text.join ['.'] (m.selected value)).percentEncode? <;> simp [Except.mapError]
  · next hplain => exact iff_of_true ⟨_, rfl⟩ fun hencode => absurd hencode hplain

end SenderPolicy.Transformation
