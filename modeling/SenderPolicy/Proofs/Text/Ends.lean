import Mathlib.Data.List.TakeWhile
import SenderPolicy.Text.Basic

/-! The ends of texts.  What is dropped from an end is all of one kind, and what is left ends in no
character of that kind. -/

namespace SenderPolicy.Text

variable {p : Character → Bool} {c : Character} {t before after : Text}

theorem dropTrailing_of_getLast? (h : ∀ c, t.getLast? = some c → p c = false) :
    t.dropTrailing p = t := by
  rw [dropTrailing]
  cases hr : t.reverse with
  | nil => simpa using hr
  | cons c rest =>
    have hc : p c = false := h c (by rw [← List.head?_reverse, hr]; rfl)
    rw [List.dropWhile_cons, hc, ← hr]
    simp

theorem dropFinalDots_eq_self (h : t.getLast? ≠ some (.scalar '.')) : t.dropFinalDots = t := by
  refine dropTrailing_of_getLast? fun c hc => ?_
  simpa using fun hdot : c = '.' => h (hdot ▸ hc)

theorem getLast?_dropTrailing {c : Character} (h : (t.dropTrailing p).getLast? = some c) :
    p c = false := by
  rw [dropTrailing, List.getLast?_reverse] at h
  have hfirst := List.head?_dropWhile_not p t.reverse
  rw [h] at hfirst
  exact hfirst

theorem getLast?_dropFinalDots (t : Text) : t.dropFinalDots.getLast? ≠ some (.scalar '.') := by
  intro h
  have hother := getLast?_dropTrailing h
  simp at hother

theorem dropTrailing_append (t : Text) (h : ∀ c ∈ after, p c) :
    (t ++ after).dropTrailing p = t.dropTrailing p := by
  rw [dropTrailing, List.reverse_append, List.dropWhile_append_of_pos (by simpa using h)]
  rfl

/-- What is dropped from an end is what follows. -/
theorem exists_dropTrailing_append (p : Character → Bool) (t : Text) :
    ∃ after, t = t.dropTrailing p ++ after ∧ ∀ c ∈ after, p c := by
  refine ⟨(t.reverse.takeWhile p).reverse, ?_, ?_⟩
  · calc t = (t.reverse.takeWhile p ++ t.reverse.dropWhile p).reverse := by
          rw [List.takeWhile_append_dropWhile, List.reverse_reverse]
      _ = t.dropTrailing p ++ (t.reverse.takeWhile p).reverse := List.reverse_append
  · intro c hc
    exact List.mem_takeWhile_imp (List.mem_reverse.1 hc)

/-- What is trimmed off is what surrounds the rest. -/
theorem exists_trim_append (p : Character → Bool) (t : Text) :
    ∃ before after, t = before ++ trim p t ++ after ∧ (∀ c ∈ before, p c) ∧ ∀ c ∈ after, p c := by
  obtain ⟨after, hrest, hafter⟩ := exists_dropTrailing_append p (t.dropWhile p)
  refine ⟨t.takeWhile p, after, ?_, fun c => List.mem_takeWhile_imp, hafter⟩
  rw [List.append_assoc, trim, ← hrest, List.takeWhile_append_dropWhile]

theorem trim_eq_nil_iff : trim p t = [] ↔ ∀ c ∈ t, p c := by
  constructor
  · intro h
    obtain ⟨before, after, hwhole, hbefore, hafter⟩ := exists_trim_append p t
    rw [h, List.append_nil] at hwhole
    rw [hwhole]
    exact List.forall_mem_append.2 ⟨hbefore, hafter⟩
  · intro h
    rw [trim, List.dropWhile_eq_nil_iff.2 h]
    rfl

theorem head?_dropTrailing (h : (t.dropTrailing p).head? = some c) : t.head? = some c := by
  obtain ⟨after, hwhole, -⟩ := exists_dropTrailing_append p t
  rw [hwhole, List.head?_append, h]
  rfl

theorem head?_trim (h : (trim p t).head? = some c) : p c = false := by
  have hfirst := List.head?_dropWhile_not p t
  rw [head?_dropTrailing h] at hfirst
  exact hfirst

/-- Nothing but what surrounds a text is trimmed off, if the text begins and ends in something
else. -/
theorem trim_append_append (hbefore : ∀ c ∈ before, p c) (hafter : ∀ c ∈ after, p c)
    (hfirst : ∀ c, t.head? = some c → p c = false)
    (hlast : ∀ c, t.getLast? = some c → p c = false) :
    trim p (before ++ t ++ after) = t := by
  have hfront : (before ++ (t ++ after)).dropWhile p = (t ++ after).dropWhile p :=
    List.dropWhile_append_of_pos hbefore
  rw [trim, List.append_assoc, hfront]
  cases t with
  | nil =>
    have hnone : after.dropWhile p = [] := List.dropWhile_eq_nil_iff.2 hafter
    rw [List.nil_append, hnone]
    rfl
  | cons c t =>
    have hc : ¬ p c = true := by simpa using hfirst c rfl
    rw [List.cons_append, List.dropWhile_cons_of_neg hc, ← List.cons_append,
      dropTrailing_append _ hafter, dropTrailing_of_getLast? hlast]

/-! ### The last of a kind -/

theorem not_mem_afterLast (c : Character) (t : Text) : c ∉ t.afterLast c := by
  intro h
  have hother := List.mem_takeWhile_imp (List.mem_reverse.1 h)
  simp at hother

/-- Nothing stands before the last `c` exactly if the text begins with its only `c`. -/
theorem beforeLast_eq_nil_iff (h : c ∈ t) :
    t.beforeLast c = [] ↔ ∃ after, c ∉ after ∧ t = c :: after := by
  constructor
  · intro hbefore
    have hwhole := beforeLast_append_afterLast h
    rw [hbefore] at hwhole
    exact ⟨_, not_mem_afterLast c t, hwhole.symm⟩
  · rintro ⟨after, hafter, rfl⟩
    exact @beforeLast_append_cons c [] after hafter

end SenderPolicy.Text
