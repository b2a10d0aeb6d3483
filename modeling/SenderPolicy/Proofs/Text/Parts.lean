import Mathlib.Data.List.Basic
import SenderPolicy.Text.Basic

/-! Texts in parts.  A text is cut at every character of some kind, which none of its parts holds
then, and parts are joined by one character. -/

namespace SenderPolicy.Text

variable {c separator : Character} {part t : Text} {parts : List Text} {p : Character → Bool}

/-! ### Joining -/

theorem join_cons (separator : Character) (part : Text) (hne : parts ≠ []) :
    join [separator] (part :: parts) = part ++ separator :: join [separator] parts := by
  obtain ⟨next, others, rfl⟩ := List.exists_cons_of_ne_nil hne
  rw [join, List.intercalate_cons_cons, List.append_assoc]
  rfl

theorem mem_join (h : c ∈ join [separator] parts) : c = separator ∨ ∃ part ∈ parts, c ∈ part := by
  induction parts with
  | nil => simp [join] at h
  | cons part parts ih =>
    by_cases hne : parts = []
    · subst hne
      exact .inr ⟨part, by simp, by simpa [join] using h⟩
    · rw [join_cons _ _ hne, List.mem_append, List.mem_cons] at h
      rcases h with hc | hc | hc
      · exact .inr ⟨part, by simp, hc⟩
      · exact .inl hc
      · rcases ih hc with hc | ⟨p, hp, hc⟩
        · exact .inl hc
        · exact .inr ⟨p, List.mem_cons_of_mem _ hp, hc⟩

/-! ### Cutting -/

theorem splitOn_join (h : ∀ part ∈ parts, c ∉ part) (hne : parts ≠ []) :
    (join [c] parts).splitOn c = parts :=
  List.splitOn_intercalate c h hne

/-- A character either is where a text is cut or begins what is the first part after it. -/
theorem splitOnP_cons (p : Character → Bool) (c : Character) (t : Text) :
    ∃ part parts, t.splitOnP p = part :: parts ∧
      (c :: t).splitOnP p = if p c then [] :: part :: parts else (c :: part) :: parts := by
  obtain ⟨part, parts, hparts⟩ := List.exists_cons_of_ne_nil (List.splitOnP_ne_nil p t)
  refine ⟨part, parts, hparts, ?_⟩
  rw [List.splitOnP_cons_eq_if_modifyHead, hparts]
  rfl

/-- No part holds a character at which the text is cut. -/
theorem not_of_mem_splitOnP (h : part ∈ t.splitOnP p) : ∀ c ∈ part, p c = false := by
  induction t generalizing part with
  | nil =>
    rw [List.splitOnP_nil, List.mem_singleton] at h
    subst h
    nofun
  | cons d t ih =>
    obtain ⟨first, others, hparts, hcons⟩ := splitOnP_cons p d t
    rw [hparts] at ih
    rw [hcons] at h
    split at h
    · rcases List.mem_cons.1 h with rfl | h
      · nofun
      · exact ih h
    · next hd =>
      rcases List.mem_cons.1 h with rfl | h
      · intro c hc
        rcases List.mem_cons.1 hc with rfl | hc
        · exact Bool.eq_false_iff.2 hd
        · exact ih List.mem_cons_self c hc
      · exact ih (List.mem_cons_of_mem _ h)

/-- The parts hold nothing that the text does not hold. -/
theorem mem_of_mem_splitOnP (hpart : part ∈ t.splitOnP p) (hc : c ∈ part) : c ∈ t := by
  induction t generalizing part with
  | nil =>
    rw [List.splitOnP_nil, List.mem_singleton] at hpart
    exact hpart ▸ hc
  | cons d t ih =>
    obtain ⟨first, others, hparts, hcons⟩ := splitOnP_cons p d t
    rw [hparts] at ih
    rw [hcons] at hpart
    split at hpart
    · rcases List.mem_cons.1 hpart with rfl | hpart
      · cases hc
      · exact List.mem_cons_of_mem _ (ih hpart hc)
    · rcases List.mem_cons.1 hpart with rfl | hpart
      · rcases List.mem_cons.1 hc with rfl | hc
        · exact List.mem_cons_self
        · exact List.mem_cons_of_mem _ (ih List.mem_cons_self hc)
      · exact List.mem_cons_of_mem _ (ih (List.mem_cons_of_mem _ hpart) hc)

/-- Whatever does not separate parts stands in one of them. -/
theorem exists_part_of_mem {p : Character → Bool} {c : Character} {t : Text} (hmem : c ∈ t)
    (hc : p c = false) : ∃ part ∈ t.splitOnP p, c ∈ part := by
  induction t with
  | nil => cases hmem
  | cons d t ih =>
    obtain ⟨first, others, hparts, hcons⟩ := splitOnP_cons p d t
    rw [hcons]
    rcases List.mem_cons.1 hmem with rfl | hmem
    · rw [if_neg (by simp [hc])]
      exact ⟨_, List.mem_cons_self, List.mem_cons_self⟩
    · obtain ⟨part, hpart, hin⟩ := ih hmem
      rw [hparts] at hpart
      by_cases hd : p d = true
      · rw [if_pos hd]
        exact ⟨part, List.mem_cons_of_mem _ hpart, hin⟩
      · rw [if_neg hd]
        rcases List.mem_cons.1 hpart with rfl | hpart
        · exact ⟨_, List.mem_cons_self, List.mem_cons_of_mem _ hin⟩
        · exact ⟨part, List.mem_cons_of_mem _ hpart, hin⟩

theorem not_mem_of_mem_splitOn (h : part ∈ t.splitOn c) : c ∉ part := by
  intro hc
  have hother := not_of_mem_splitOnP h c hc
  simp at hother

/-- A text that is cut and joined again has the separator wherever it was cut, and is the same
everywhere else. -/
theorem join_splitOnP (separator : Character) (p : Character → Bool) (t : Text) :
    join [separator] (t.splitOnP p) = t.map fun c => if p c then separator else c := by
  induction t with
  | nil => rfl
  | cons c t ih =>
    obtain ⟨part, parts, hparts, hcons⟩ := splitOnP_cons p c t
    rw [hcons, List.map_cons, ← ih, hparts]
    split
    · exact join_cons separator [] (List.cons_ne_nil part parts)
    · by_cases hne : parts = []
      · subst hne
        simp [join]
      · rw [join_cons _ _ hne, join_cons _ _ hne]
        rfl

end SenderPolicy.Text
