import Mathlib.Data.List.Basic
import SenderPolicy.Text.Case

/-! Lower case.  The lower case of a text has no characters before the small letters of ASCII but
those of the text, and no character beyond ASCII has a small letter of ASCII but `k` for its lower
case. -/

namespace SenderPolicy.Text

theorem toLower_eq_or_le {c : Character} (h : c.toNat < 0x80) :
    c.toLower = c ∨ 0x61 ≤ c.toLower.toNat := by
  cases c with
  | surrogate index => exact .inl rfl
  | scalar c =>
    have hascii : ∀ n : Fin 0x80, (Char.ofNat n).toLower = Char.ofNat n ∨
        0x61 ≤ (Char.ofNat n).toLower.toNat := by decide +kernel
    have hc := hascii ⟨c.toNat, h⟩
    rw [Char.ofNat_toNat] at hc
    exact hc.imp_left (congrArg _)

/-- Of the letters of ASCII, only `k` is the lower case of a character beyond ASCII. -/
theorem map?_lowerRuns {run : CaseRun} {c d : Character} (hrun : run ∈ lowerRuns)
    (h : run.map? c = some d) : d = 'k' ∨ 0x80 ≤ d.toNat := by
  have htargets : ∀ run ∈ lowerRuns,
      (run.target = 'k'.toNat ∧ run.last = run.first ∨ 0x80 ≤ run.target) ∧
      (run.target + (run.last - run.first) < 0xd800 ∨
        0xdfff < run.target ∧ run.target + (run.last - run.first) < 0x110000) := by
    decide +kernel
  obtain ⟨hlow, hvalid⟩ := htargets run hrun
  unfold CaseRun.map? at h
  split at h
  · next hc =>
    have hchar : (run.target + (c.toNat - run.first)).isValidChar := by
      rcases hvalid with hvalid | hvalid
      · exact .inl (by omega)
      · exact .inr (by omega)
    have hnat : d.toNat = run.target + (c.toNat - run.first) := by
      rw [← Option.some.inj h, Character.toNat_scalar, Char.ofNat, dif_pos hchar]
      rfl
    rcases hlow with ⟨htarget, hsingle⟩ | hlow
    · exact .inl (Character.toNat_inj.1 (by rw [Character.toNat_scalar]; omega))
    · exact .inr (by omega)
  · cases h

theorem le_of_map?_lowerRuns {run : CaseRun} {c d : Character} (hrun : run ∈ lowerRuns)
    (h : run.map? c = some d) : 0x61 ≤ d.toNat := by
  rcases map?_lowerRuns hrun h with rfl | hd
  · decide
  · omega

theorem mem_lowerChar {c x : Character} (h : x ∈ lowerChar c) : x = c ∨ 0x61 ≤ x.toNat := by
  unfold lowerChar at h
  split at h
  · next hascii =>
    rw [List.mem_singleton.1 h]
    exact toLower_eq_or_le hascii
  · split at h
    · refine .inr ?_
      rcases List.mem_pair.1 h with rfl | rfl <;> decide
    · obtain rfl := List.mem_singleton.1 h
      unfold mapCase
      cases hmap : lowerRuns.findSome? (·.map? c) with
      | none => exact .inl rfl
      | some d =>
        obtain ⟨run, hrun, hd⟩ := List.exists_of_findSome?_eq_some hmap
        exact .inr (le_of_map?_lowerRuns hrun hd)

theorem mem_lowerAfter {before t : Text} {x : Character} (h : x ∈ lowerAfter before t) :
    x ∈ t ∨ 0x61 ≤ x.toNat := by
  induction t generalizing before with
  | nil => cases h
  | cons c t ih =>
    rw [lowerAfter, List.mem_append] at h
    rcases h with h | h
    · split at h
      · refine .inr ?_
        rw [List.mem_singleton.1 h, smallSigma]
        split <;> decide
      · rcases mem_lowerChar h with rfl | hx
        · exact .inl List.mem_cons_self
        · exact .inr hx
    · rcases ih h with hx | hx
      · exact .inl (List.mem_cons_of_mem _ hx)
      · exact .inr hx

/-- What stands before the small letters of ASCII is in the lower case of a text only if it is in
the text. -/
theorem mem_of_mem_lower {t : Text} {x : Character} (hx : x.toNat < 0x61) (h : x ∈ t.lower) :
    x ∈ t := by
  rcases mem_lowerAfter h with h | h
  · exact h
  · omega

theorem toLower_of_not_ascii {c : Character} (h : ¬c.toNat < 0x80) : c.toLower = c := by
  cases c with
  | surrogate index => rfl
  | scalar c =>
    refine congrArg Character.scalar (dif_neg fun hrange => h ?_)
    exact Nat.lt_of_le_of_lt (UInt32.le_iff_toNat_le.1 hrange.2) (by decide)

/-- The lower case of a single character is a character of ASCII other than `k` exactly if its lower
case within ASCII is. -/
theorem lower_singleton_eq_iff {c a : Character} (ha : a.toNat < 0x80) (hk : a ≠ 'k') :
    lower [c] = [a] ↔ c.toLower = a := by
  by_cases hascii : c.toNat < 0x80
  · have hsigma : c ≠ 'Σ' := by
      rintro rfl
      exact absurd hascii (by decide)
    simp [lower, lowerAfter, lowerChar, hascii, hsigma]
  have hother : c ≠ a := by
    rintro rfl
    exact hascii ha
  rw [toLower_of_not_ascii hascii]
  refine iff_of_false (fun h => ?_) hother
  by_cases hsigma : c = 'Σ'
  · obtain rfl : smallSigma [] [] = a := by simpa [lower, lowerAfter, hsigma] using h
    exact absurd ha (by decide)
  by_cases hdotted : c = '\u0130'
  · simp [lower, lowerAfter, lowerChar, hdotted] at h
  · obtain rfl : mapCase lowerRuns c = a := by
      simpa [lower, lowerAfter, lowerChar, hascii, hsigma, hdotted] using h
    unfold mapCase at ha hk hother
    cases hmap : lowerRuns.findSome? (·.map? c) with
    | none =>
      rw [hmap] at hother
      exact hother rfl
    | some d =>
      rw [hmap] at ha hk
      obtain ⟨run, hrun, hd⟩ := List.exists_of_findSome?_eq_some hmap
      rcases map?_lowerRuns hrun hd with rfl | hbeyond
      · exact hk rfl
      · exact absurd ha (Nat.not_lt.2 hbeyond)

end SenderPolicy.Text
