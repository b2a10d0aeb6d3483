import Mathlib.Algebra.Order.Field.Power
import Mathlib.Algebra.Order.Field.Rat
import Mathlib.Tactic.FieldSimp
import Mathlib.Tactic.Linarith
import Mathlib.Tactic.NormNum
import Mathlib.Tactic.Positivity
import Mathlib.Tactic.Ring
import SenderPolicy.Number.Binary64

/-! Rounding to binary64 numbers keeps the order of numbers, and it leaves a number alone that is a
binary64 number already. -/

namespace SenderPolicy.Binary64

/-! ### Rounding to integers -/

theorem roundEven_bounds (r : Rat) : r.floor ≤ roundEven r ∧ roundEven r ≤ r.floor + 1 := by
  unfold roundEven
  dsimp only
  split_ifs <;> omega

theorem roundEven_intCast (k : Int) : roundEven (k : Rat) = k := by
  unfold roundEven
  simp [Rat.floor_intCast]

theorem roundEven_mono {r s : Rat} (h : r ≤ s) : roundEven r ≤ roundEven s := by
  obtain ⟨-, hr⟩ := roundEven_bounds r
  obtain ⟨hs, -⟩ := roundEven_bounds s
  rcases (Rat.floor_monotone h).lt_or_eq with hlt | heq
  · omega
  · unfold roundEven
    dsimp only
    rw [heq]
    have hrest : r - (s.floor : Rat) ≤ s - (s.floor : Rat) := by linarith
    split_ifs <;> first | omega | linarith

/-! ### Exponents -/

theorem twoPow_eq (k : Int) : twoPow k = 2 ^ k := by
  unfold twoPow
  split_ifs with hk
  · obtain ⟨n, rfl⟩ := Int.eq_ofNat_of_zero_le hk
    simp
  · obtain ⟨n, hn⟩ := Int.eq_ofNat_of_zero_le (show 0 ≤ -k by omega)
    obtain rfl : k = -n := by omega
    simp

theorem twoPow_pos (k : Int) : 0 < twoPow k := by
  rw [twoPow_eq]
  positivity

theorem twoPow_mono {j k : Int} (h : j ≤ k) : twoPow j ≤ twoPow k := by
  rw [twoPow_eq, twoPow_eq]
  exact zpow_le_zpow_right₀ (by norm_num) h

theorem twoPow_add (j k : Int) : twoPow (j + k) = twoPow j * twoPow k := by
  rw [twoPow_eq, twoPow_eq, twoPow_eq, zpow_add₀ (by norm_num)]

theorem twoPow_one : twoPow 1 = 2 := by
  rw [twoPow_eq, zpow_one]

theorem twoPow_52 : twoPow 52 = leastNormal := by
  rw [twoPow_eq]
  norm_num [leastNormal]

theorem twoPow_53 : twoPow 53 = 2 * leastNormal := by
  rw [show (53 : Int) = 1 + 52 by rfl, twoPow_add, twoPow_one, twoPow_52]

theorem lt_of_twoPow_lt {j k : Int} (h : twoPow j < twoPow k) : j < k := by
  rw [twoPow_eq, twoPow_eq] at h
  exact (zpow_lt_zpow_iff_right₀ (by norm_num)).1 h

theorem twoPow_log2_le {n : Nat} (hn : n ≠ 0) :
    twoPow n.log2 ≤ n ∧ (n : Rat) < twoPow (n.log2 + 1) := by
  rw [twoPow_eq, twoPow_eq, ← Nat.cast_succ, zpow_natCast, zpow_natCast]
  exact ⟨by exact_mod_cast Nat.log2_self_le hn, by exact_mod_cast Nat.lt_log2_self⟩

/-- The bits of the numerator and the denominator tell a positive number up to a factor of two. -/
theorem twoPow_log2_bounds {r : Rat} (hr : 0 < r) :
    twoPow (r.num.natAbs.log2 - r.den.log2 - 1) < r ∧
      r < twoPow (r.num.natAbs.log2 - r.den.log2 + 1) := by
  have hnum : 0 < r.num := Rat.num_pos.2 hr
  obtain ⟨hnumLow, hnumHigh⟩ := twoPow_log2_le (n := r.num.natAbs) (by omega)
  obtain ⟨hdenLow, hdenHigh⟩ := twoPow_log2_le (n := r.den) r.den_nz
  have hcast : (r.num.natAbs : Rat) = r.num := by
    rw [← Int.cast_natCast, Int.natCast_natAbs, abs_of_pos hnum]
  rw [hcast] at hnumLow hnumHigh
  have hden : (0 : Rat) < r.den := by exact_mod_cast r.den_pos
  rw [← Rat.num_div_den r, lt_div_iff₀ hden, div_lt_iff₀ hden, Rat.num_div_den]
  generalize r.num.natAbs.log2 = a at *
  generalize r.den.log2 = b at *
  constructor
  · calc twoPow (a - b - 1) * r.den < twoPow (a - b - 1) * twoPow (b + 1) :=
          mul_lt_mul_of_pos_left hdenHigh (twoPow_pos _)
      _ = twoPow a := by rw [← twoPow_add]; congr 1; omega
      _ ≤ r.num := hnumLow
  · calc (r.num : Rat) < twoPow (a + 1) := hnumHigh
      _ = twoPow (a - b + 1) * twoPow b := by rw [← twoPow_add]; congr 1; omega
      _ ≤ twoPow (a - b + 1) * r.den := mul_le_mul_of_nonneg_left hdenLow (twoPow_pos _).le

/-- A positive number has 53 bits before the point at its exponent, or fewer at the least one. -/
theorem exponentOf_spec {r : Rat} (hr : 0 < r) :
    r < twoPow (exponentOf r + 53) ∧ -1074 ≤ exponentOf r ∧
      (exponentOf r = -1074 ∨ twoPow (exponentOf r + 52) ≤ r) := by
  obtain ⟨hlow, hhigh⟩ := twoPow_log2_bounds hr
  unfold exponentOf
  dsimp only
  generalize (r.num.natAbs.log2 : Int) - r.den.log2 = k at *
  have hexact : ∀ exact : Int, twoPow (exact + 52) ≤ r → r < twoPow (exact + 53) →
      r < twoPow (max exact (-1074) + 53) ∧ -1074 ≤ max exact (-1074) ∧
        (max exact (-1074) = -1074 ∨ twoPow (max exact (-1074) + 52) ≤ r) := by
    intro exact hle hlt
    refine ⟨hlt.trans_le (twoPow_mono (by omega)), le_max_right _ _, ?_⟩
    rcases le_total exact (-1074) with h | h
    · exact .inl (max_eq_right h)
    · exact .inr (by rwa [max_eq_left h])
  split_ifs with hk
  · refine hexact _ ?_ (by simpa [sub_add] using hk)
    exact (le_of_eq (by congr 1; omega)).trans hlow.le
  · refine hexact _ (not_lt.1 hk) ?_
    exact hhigh.trans_le (le_of_eq (by congr 1; omega))

/-! ### Positive numbers -/

def significandOf (r : Rat) : Int := roundEven (r / twoPow (exponentOf r))

/-- A positive number with its significand rounded, whatever its exponent is. -/
def rounded (r : Rat) : Rat := significandOf r * twoPow (exponentOf r)

theorem significandOf_le {r : Rat} (hr : 0 < r) : significandOf r ≤ 2 * leastNormal := by
  have hlt := (exponentOf_spec hr).1
  rw [twoPow_add, mul_comm] at hlt
  have hscaled : r / twoPow (exponentOf r) ≤ 2 * leastNormal :=
    twoPow_53 ▸ ((div_lt_iff₀ (twoPow_pos _)).2 hlt).le
  calc significandOf r ≤ roundEven ((2 * leastNormal : Int) : Rat) :=
        roundEven_mono (by exact_mod_cast hscaled)
    _ = 2 * leastNormal := roundEven_intCast _

theorem significandOf_nonneg {r : Rat} (hr : 0 < r) : 0 ≤ significandOf r := by
  calc 0 = roundEven ((0 : Int) : Rat) := (roundEven_intCast 0).symm
    _ ≤ significandOf r := roundEven_mono (by
        have := div_pos hr (twoPow_pos (exponentOf r))
        exact_mod_cast this.le)

theorem le_significandOf {r : Rat} (hr : 0 < r) (h : exponentOf r ≠ -1074) :
    leastNormal ≤ significandOf r := by
  have hle := (exponentOf_spec hr).2.2.resolve_left h
  rw [twoPow_add, mul_comm] at hle
  have hscaled : leastNormal ≤ r / twoPow (exponentOf r) :=
    twoPow_52 ▸ (le_div_iff₀ (twoPow_pos _)).2 hle
  calc (leastNormal : Int) = roundEven ((leastNormal : Int) : Rat) := (roundEven_intCast _).symm
    _ ≤ significandOf r := roundEven_mono (by exact_mod_cast hscaled)

theorem exponentOf_mono {r s : Rat} (hr : 0 < r) (h : r ≤ s) : exponentOf r ≤ exponentOf s := by
  obtain ⟨-, -, hlow⟩ := exponentOf_spec hr
  obtain ⟨hhigh, hleast, -⟩ := exponentOf_spec (hr.trans_le h)
  rcases hlow with hlow | hlow
  · omega
  · have := lt_of_twoPow_lt (hlow.trans_lt (h.trans_lt hhigh))
    omega

theorem rounded_mono {r s : Rat} (hr : 0 < r) (h : r ≤ s) : rounded r ≤ rounded s := by
  have hs : 0 < s := hr.trans_le h
  rcases (exponentOf_mono hr h).lt_or_eq with hlt | heq
  · have hnormal : exponentOf s ≠ -1074 := by
      have := (exponentOf_spec hr).2.1
      omega
    have hrle : (significandOf r : Rat) ≤ 2 * leastNormal := by
      exact_mod_cast significandOf_le hr
    have hsle : (leastNormal : Rat) ≤ significandOf s := by
      exact_mod_cast le_significandOf hs hnormal
    calc rounded r ≤ 2 * leastNormal * twoPow (exponentOf r) :=
          mul_le_mul_of_nonneg_right hrle (twoPow_pos _).le
      _ = leastNormal * twoPow (exponentOf r + 1) := by
          rw [twoPow_add, twoPow_one]
          ring
      _ ≤ leastNormal * twoPow (exponentOf s) :=
          mul_le_mul_of_nonneg_left (twoPow_mono hlt) (by positivity)
      _ ≤ rounded s := mul_le_mul_of_nonneg_right hsle (twoPow_pos _).le
  · have hsignificand : significandOf r ≤ significandOf s := by
      unfold significandOf
      rw [heq]
      exact roundEven_mono (div_le_div_of_nonneg_right h (twoPow_pos _).le)
    unfold rounded
    rw [heq]
    exact mul_le_mul_of_nonneg_right (by exact_mod_cast hsignificand) (twoPow_pos _).le

/-- A significand of 53 bits at an exponent that is allowed is not rounded. -/
theorem rounded_eq_self {m : Nat} {k : Int} (hm : 0 < m) (hbits : m < 2 * leastNormal)
    (hk : -1074 ≤ k) : rounded (m * twoPow k) = m * twoPow k := by
  have hpos : (0 : Rat) < m * twoPow k := mul_pos (by exact_mod_cast hm) (twoPow_pos k)
  obtain ⟨-, -, hlow⟩ := exponentOf_spec hpos
  have hexponent : exponentOf (m * twoPow k) ≤ k := by
    rcases hlow with hlow | hlow
    · omega
    · have hlt : (m : Rat) * twoPow k < twoPow (k + 53) := by
        rw [twoPow_add, mul_comm, twoPow_53]
        exact mul_lt_mul_of_pos_left (by exact_mod_cast hbits) (twoPow_pos k)
      have := lt_of_twoPow_lt (hlow.trans_lt hlt)
      omega
  obtain ⟨shift, hshift⟩ := Int.eq_ofNat_of_zero_le (Int.sub_nonneg.2 hexponent)
  have hscaled : (m : Rat) * twoPow k / twoPow (exponentOf (m * twoPow k)) =
      ((m * 2 ^ shift : Nat) : Int) := by
    generalize exponentOf (m * twoPow k) = j at hshift
    rw [mul_div_assoc, twoPow_eq, twoPow_eq, ← zpow_sub₀ (by norm_num), hshift]
    push_cast
    rfl
  unfold rounded significandOf
  rw [hscaled, roundEven_intCast, ← hscaled, div_mul_cancel₀ _ (twoPow_pos _).ne']

theorem twoPow_1024 : twoPow 1024 = leastNormal * twoPow 972 := by
  rw [show (1024 : Int) = 52 + 972 by rfl, twoPow_add, twoPow_52]

theorem value_lt {m : Nat} {k : Int} (hbits : m < 2 * leastNormal) (hk : k ≤ 971) :
    m * twoPow k < twoPow 1024 := by
  calc (m : Rat) * twoPow k < (2 * leastNormal : Nat) * twoPow k :=
        mul_lt_mul_of_pos_right (by exact_mod_cast hbits) (twoPow_pos k)
    _ ≤ (2 * leastNormal : Nat) * twoPow 971 :=
        mul_le_mul_of_nonneg_left (twoPow_mono hk) (by positivity)
    _ = twoPow 1024 := by
        rw [twoPow_1024, show (972 : Int) = 1 + 971 by rfl, twoPow_add, twoPow_one]
        push_cast
        ring

/-- A positive number becomes infinite where its rounded significand leaves the range, and otherwise
it becomes a number of 53 bits that has the rounded value. -/
theorem ofMagnitude_cases (negative : Bool) {r : Rat} (hr : 0 < r) :
    (ofMagnitude negative r = .infinite negative ∧ twoPow 1024 ≤ rounded r) ∨
      ∃ m k, ofMagnitude negative r = .finite negative m k ∧ m * twoPow k = rounded r ∧
        m < 2 * leastNormal ∧ -1074 ≤ k ∧ k ≤ 971 := by
  have hleast := (exponentOf_spec hr).2.1
  obtain ⟨m, hm⟩ := Int.eq_ofNat_of_zero_le (significandOf_nonneg hr)
  have hhigh : m ≤ 2 * leastNormal := by
    have := significandOf_le hr
    omega
  have htoNat : (roundEven (r / twoPow (exponentOf r))).toNat = m := by
    rw [show roundEven (r / twoPow (exponentOf r)) = m from hm, Int.toNat_natCast]
  have hvalue : rounded r = m * twoPow (exponentOf r) := by
    rw [rounded, hm, Int.cast_natCast]
  unfold ofMagnitude
  simp only [if_neg hr.ne', htoNat]
  by_cases hcarry : m = 2 * leastNormal
  · have hcarried : rounded r = leastNormal * twoPow (exponentOf r + 1) := by
      rw [hvalue, hcarry, twoPow_add, twoPow_one]
      push_cast
      ring
    simp only [if_pos hcarry]
    split_ifs with hk
    · refine .inl ⟨rfl, ?_⟩
      rw [hcarried, twoPow_1024]
      exact mul_le_mul_of_nonneg_left (twoPow_mono (by omega)) (by positivity)
    · exact .inr ⟨_, _, rfl, hcarried.symm, by decide, by omega, by omega⟩
  · simp only [if_neg hcarry]
    split_ifs with hk
    · refine .inl ⟨rfl, ?_⟩
      have hnormal : leastNormal ≤ m := by
        have := le_significandOf hr (by omega)
        omega
      rw [hvalue, twoPow_1024]
      exact mul_le_mul (by exact_mod_cast hnormal) (twoPow_mono (by omega)) (twoPow_pos _).le
        (by positivity)
    · exact .inr ⟨_, _, rfl, hvalue.symm, by omega, hleast, by omega⟩

/-! ### Numbers of either sign -/

theorem atMost_iff {a b : Binary64} {x y : Rat} (ha : a.toRat? = some x) (hb : b.toRat? = some y) :
    a.atMost b ↔ x ≤ y := by
  cases a <;> cases b <;> simp_all [toRat?, atMost]

theorem atMost_trans {a b c : Binary64} (hab : a.atMost b) (hbc : b.atMost c) : a.atMost c := by
  cases a <;> cases b <;> cases c <;> simp_all [atMost]
  · exact hab.trans hbc
  · rcases hab with hab | hab
    · exact .inl hab
    · exact .inr (hbc.resolve_left (by simp [hab]))

theorem exact_false (m : Nat) (k : Int) : exact false m k = m * twoPow k := by
  simp [exact]

theorem exact_true (m : Nat) (k : Int) : exact true m k = -(m * twoPow k) := by
  simp [exact]

theorem ofRat_of_pos {x : Rat} (h : 0 < x) : ofRat x = ofMagnitude false x := by
  simp [ofRat, not_lt.2 h.le]

theorem ofRat_of_neg {x : Rat} (h : x < 0) : ofRat x = ofMagnitude true (-x) := by
  simp [ofRat, h]

theorem toRat?_ofRat_zero : (ofRat 0).toRat? = some 0 := by
  simp [ofRat, ofMagnitude, toRat?, exact]

theorem value_nonneg (m : Nat) (k : Int) : 0 ≤ (m : Rat) * twoPow k :=
  mul_nonneg (by positivity) (twoPow_pos k).le

/-- Two positive numbers in order: the greater one becomes infinite, or both become numbers of 53
bits in the same order. -/
theorem ofMagnitude_ordered (negative : Bool) {r s : Rat} (hr : 0 < r) (h : r ≤ s) :
    ofMagnitude negative s = .infinite negative ∨
      ∃ m k n j, ofMagnitude negative r = .finite negative m k ∧
        ofMagnitude negative s = .finite negative n j ∧ (m : Rat) * twoPow k ≤ n * twoPow j := by
  have hrounded := rounded_mono hr h
  rcases ofMagnitude_cases negative (hr.trans_le h) with
    ⟨hinfinite, -⟩ | ⟨n, j, hs, hn, hbits, -, hj⟩
  · exact .inl hinfinite
  · rcases ofMagnitude_cases negative hr with ⟨-, hlarge⟩ | ⟨m, k, hfinite, hm, -⟩
    · have := value_lt hbits hj
      linarith
    · exact .inr ⟨m, k, n, j, hfinite, hs, by rw [hm, hn]; exact hrounded⟩

theorem ofMagnitude_mono {r s : Rat} (hr : 0 < r) (h : r ≤ s) :
    (ofMagnitude false r).atMost (ofMagnitude false s) ∧
      (ofMagnitude true s).atMost (ofMagnitude true r) := by
  constructor
  · rcases ofMagnitude_ordered false hr h with hs | ⟨m, k, n, j, hr, hs, hle⟩
    · rcases ofMagnitude_cases false hr with ⟨hr, -⟩ | ⟨m, k, hr, -⟩ <;> rw [hr, hs] <;> rfl
    · rw [hr, hs, atMost_iff rfl rfl, exact_false, exact_false]
      exact hle
  · rcases ofMagnitude_ordered true hr h with hs | ⟨m, k, n, j, hr, hs, hle⟩
    · rcases ofMagnitude_cases true hr with ⟨hr, -⟩ | ⟨m, k, hr, -⟩ <;> rw [hr, hs] <;> rfl
    · rw [hr, hs, atMost_iff rfl rfl, exact_true, exact_true]
      exact neg_le_neg hle

theorem ofRat_of_nonneg {x : Rat} (h : 0 ≤ x) :
    ofRat x = .infinite false ∨ ∃ y, (ofRat x).toRat? = some y ∧ 0 ≤ y := by
  rcases h.eq_or_lt with rfl | hpos
  · exact .inr ⟨0, toRat?_ofRat_zero, le_rfl⟩
  · rw [ofRat_of_pos hpos]
    rcases ofMagnitude_cases false hpos with ⟨hx, -⟩ | ⟨m, k, hx, -⟩
    · exact .inl hx
    · exact .inr ⟨_, by rw [hx]; rfl, by rw [exact_false]; exact value_nonneg m k⟩

theorem ofRat_of_nonpos {x : Rat} (h : x ≤ 0) :
    ofRat x = .infinite true ∨ ∃ y, (ofRat x).toRat? = some y ∧ y ≤ 0 := by
  rcases h.eq_or_lt with rfl | hneg
  · exact .inr ⟨0, toRat?_ofRat_zero, le_rfl⟩
  · rw [ofRat_of_neg hneg]
    rcases ofMagnitude_cases true (neg_pos.2 hneg) with ⟨hx, -⟩ | ⟨m, k, hx, -⟩
    · exact .inl hx
    · refine .inr ⟨_, by rw [hx]; rfl, ?_⟩
      rw [exact_true]
      exact neg_nonpos.2 (value_nonneg m k)

/-- A number that is not positive is rounded to at most what one that is not negative is. -/
theorem ofRat_atMost_of_signs {x y : Rat} (hx : x ≤ 0) (hy : 0 ≤ y) :
    (ofRat x).atMost (ofRat y) := by
  rcases ofRat_of_nonpos hx with hx | ⟨v, hx, hv⟩
  · rcases ofRat_of_nonneg hy with hy | ⟨w, hy, hw⟩
    · rw [hx, hy]
      rfl
    · rw [hx]
      cases hw : ofRat y <;> simp_all [toRat?, atMost]
  · rcases ofRat_of_nonneg hy with hy | ⟨w, hy, hw⟩
    · rw [hy]
      cases hv : ofRat x <;> simp_all [toRat?, atMost]
    · exact (atMost_iff hx hy).2 (hv.trans hw)

/-- Rounding keeps the order of numbers. -/
theorem ofRat_mono {x y : Rat} (h : x ≤ y) : (ofRat x).atMost (ofRat y) := by
  rcases lt_or_ge 0 x with hx | hx
  · rw [ofRat_of_pos hx, ofRat_of_pos (hx.trans_le h)]
    exact (ofMagnitude_mono hx h).1
  · rcases lt_or_ge y 0 with hy | hy
    · rw [ofRat_of_neg hy, ofRat_of_neg (h.trans_lt hy)]
      exact (ofMagnitude_mono (neg_pos.2 hy) (neg_le_neg h)).2
    · exact ofRat_atMost_of_signs hx hy

/-! ### Exact numbers -/

/-- A number that rounding leaves alone. -/
def IsExact (x : Rat) : Prop := (ofRat x).toRat? = some x

theorem toRat?_ofMagnitude {m : Nat} {k : Int} (hm : 0 < m) (hbits : m < 2 * leastNormal)
    (hlow : -1074 ≤ k) (hhigh : k ≤ 971) (negative : Bool) :
    (ofMagnitude negative (m * twoPow k)).toRat? = some (exact negative m k) := by
  have hpos : (0 : Rat) < m * twoPow k := mul_pos (by exact_mod_cast hm) (twoPow_pos k)
  have hself := rounded_eq_self hm hbits hlow
  rcases ofMagnitude_cases negative hpos with ⟨-, hlarge⟩ | ⟨n, j, hfinite, hvalue, -⟩
  · have := value_lt hbits hhigh
    linarith
  · rw [hfinite, toRat?, exact, exact, mul_assoc, mul_assoc, hvalue, hself]

theorem isExact_value {m : Nat} {k : Int} (hbits : m < 2 * leastNormal) (hlow : -1074 ≤ k)
    (hhigh : k ≤ 971) (negative : Bool) : IsExact (exact negative m k) := by
  rcases Nat.eq_zero_or_pos m with rfl | hm
  · have hzero : exact negative 0 k = 0 := by simp [exact]
    rw [hzero]
    exact toRat?_ofRat_zero
  · have hpos : (0 : Rat) < m * twoPow k := mul_pos (by exact_mod_cast hm) (twoPow_pos k)
    have hself := toRat?_ofMagnitude hm hbits hlow hhigh negative
    cases negative with
    | false =>
      rw [exact_false] at hself ⊢
      rw [IsExact, ofRat_of_pos hpos, hself]
    | true =>
      rw [exact_true] at hself ⊢
      rw [IsExact, ofRat_of_neg (neg_neg_of_pos hpos), neg_neg, hself]

theorem isExact_intCast {n : Int} (h : n.natAbs < 2 * leastNormal) : IsExact n := by
  have hone : twoPow 0 = 1 := rfl
  have hexact := isExact_value h (show -1074 ≤ 0 by omega) (by omega) (decide (n < 0))
  have hvalue : exact (decide (n < 0)) n.natAbs 0 = n := by
    rcases lt_or_ge n 0 with hn | hn
    · rw [decide_eq_true hn, exact_true, hone, mul_one, ← Int.cast_natCast,
        Int.ofNat_natAbs_of_nonpos hn.le, Int.cast_neg, neg_neg]
    · rw [decide_eq_false (by omega), exact_false, hone, mul_one, ← Int.cast_natCast,
        Int.natAbs_of_nonneg hn]
  rwa [hvalue] at hexact

theorem isExact_of_toRat?_ofMagnitude {negative : Bool} {r y : Rat} (hr : 0 < r)
    (h : (ofMagnitude negative r).toRat? = some y) : IsExact y := by
  rcases ofMagnitude_cases negative hr with ⟨hinfinite, -⟩ | ⟨m, k, hfinite, -, hbits, hlow, hhigh⟩
  · rw [hinfinite] at h
    cases h
  · rw [hfinite] at h
    obtain rfl := Option.some.inj h
    exact isExact_value hbits hlow hhigh negative

/-- What numbers are rounded to is left alone. -/
theorem isExact_of_toRat?_ofRat {x y : Rat} (h : (ofRat x).toRat? = some y) : IsExact y := by
  rcases lt_trichotomy x 0 with hx | rfl | hx
  · rw [ofRat_of_neg hx] at h
    exact isExact_of_toRat?_ofMagnitude (neg_pos.2 hx) h
  · obtain rfl : 0 = y := Option.some.inj (toRat?_ofRat_zero.symm.trans h)
    exact h
  · rw [ofRat_of_pos hx] at h
    exact isExact_of_toRat?_ofMagnitude hx h

/-- The sum of two finite numbers is their exact sum rounded, or a zero. -/
theorem add_cases {a b : Binary64} {x y : Rat} (ha : a.toRat? = some x) (hb : b.toRat? = some y) :
    (x + y = 0 ∧ (a + b).toRat? = some 0) ∨ a + b = ofRat (x + y) := by
  cases a with
  | finite s m e =>
    cases b with
    | finite t n f =>
      obtain rfl := Option.some.inj ha
      obtain rfl := Option.some.inj hb
      by_cases hsum : exact s m e + exact t n f = 0
      · refine .inl ⟨hsum, ?_⟩
        show (add _ _).toRat? = some 0
        rw [add, if_pos hsum, toRat?, exact]
        simp
      · refine .inr ?_
        show add _ _ = _
        rw [add, if_neg hsum]
    | infinite t => cases hb
    | nan => cases hb
  | infinite s => cases ha
  | nan => cases ha

theorem exists_of_toRat?_add {a b : Binary64} {z : Rat} (h : (a + b).toRat? = some z) :
    (∃ x, a.toRat? = some x) ∧ ∃ y, b.toRat? = some y := by
  change (add a b).toRat? = some z at h
  cases a with
  | finite s m e =>
    cases b with
    | finite t n f => exact ⟨⟨_, rfl⟩, _, rfl⟩
    | infinite t => cases h
    | nan => cases h
  | infinite s =>
    cases b with
    | finite t n f => cases h
    | infinite t => by_cases hsign : s = t <;> simp [add, toRat?, hsign] at h
    | nan => cases h
  | nan => cases b <;> cases h

theorem isExact_of_toRat?_add {a b : Binary64} {z : Rat} (h : (a + b).toRat? = some z) :
    IsExact z := by
  obtain ⟨⟨x, ha⟩, y, hb⟩ := exists_of_toRat?_add h
  rcases add_cases ha hb with ⟨-, hzero⟩ | hsum
  · obtain rfl : 0 = z := Option.some.inj (hzero.symm.trans h)
    exact toRat?_ofRat_zero
  · rw [hsum] at h
    exact isExact_of_toRat?_ofRat h

theorem atMost_congr_right {a b c : Binary64} {z : Rat} (hb : b.toRat? = some z)
    (hc : c.toRat? = some z) (h : a.atMost b) : a.atMost c := by
  cases a <;> cases b <;> cases c <;> simp_all [toRat?, atMost]

theorem atMost_congr_left {a b c : Binary64} {z : Rat} (ha : a.toRat? = some z)
    (hb : b.toRat? = some z) (h : a.atMost c) : b.atMost c := by
  cases a <;> cases b <;> cases c <;> simp_all [toRat?, atMost]

/-- What is at most anything is at most infinity. -/
theorem atMost_infinite_of_atMost {a b : Binary64} (h : a.atMost b) :
    a.atMost (.infinite false) := by
  cases a with
  | finite negative m k => rfl
  | infinite negative => simp [atMost]
  | nan => cases h

/-- A sum is at most what a number that is not below it is rounded to. -/
theorem add_atMost_ofRat {a b : Binary64} {x y z : Rat} (ha : a.toRat? = some x)
    (hb : b.toRat? = some y) (h : x + y ≤ z) : (a + b).atMost (ofRat z) := by
  rcases add_cases ha hb with ⟨hzero, hsum⟩ | hsum
  · exact atMost_congr_left toRat?_ofRat_zero hsum (ofRat_mono (hzero ▸ h))
  · rw [hsum]
    exact ofRat_mono h

/-- A sum is at most an exact number that is not below it. -/
theorem add_atMost {a b c : Binary64} {x y z : Rat} (ha : a.toRat? = some x)
    (hb : b.toRat? = some y) (hc : c.toRat? = some z) (hexact : IsExact z) (h : x + y ≤ z) :
    (a + b).atMost c :=
  atMost_congr_right hexact hc (add_atMost_ofRat ha hb h)

/-- Adding the same number to two numbers keeps their order. -/
theorem add_atMost_add {a b c : Binary64} {x y z : Rat} (ha : a.toRat? = some x)
    (hb : b.toRat? = some y) (hc : c.toRat? = some z) (h : y ≤ z) : (a + b).atMost (a + c) := by
  rcases add_cases ha hc with ⟨hzero, hsum⟩ | hsum
  · exact atMost_congr_right toRat?_ofRat_zero hsum (add_atMost_ofRat ha hb (by linarith))
  · rw [hsum]
    exact add_atMost_ofRat ha hb (by linarith)

end SenderPolicy.Binary64
