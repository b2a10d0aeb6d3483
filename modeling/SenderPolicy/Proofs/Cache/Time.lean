import SenderPolicy.Proofs.Cache.Effects
import SenderPolicy.Proofs.Number.Rounding

/-! The time that a cache keeps.  Deadlines are sums of binary64 numbers, which are rounded; where
the clock is fine enough to tell a tick, nothing is found once its time has passed all the same. -/

namespace SenderPolicy.Cache

/-- What is stored at the time `stored` for `ttl` seconds is not found at the time `now`. -/
def LapsedBy (ttl : Int) (stored now : Binary64) : Prop :=
  ∀ text, CacheEntry.isLive
    ⟨text, (Store.deadline? stored (.integer ttl)).toOption.join⟩ now = false

/-- What is assumed of time and of the store, at the times of some calls: time is finite and does
not go back; what is stored for a positive number of seconds is found before these have passed only,
and what is stored for a negative number is not found later. -/
structure KeepsTime (ttl : Int) (times : List Binary64) : Prop where
  finite : ∀ now ∈ times, now.toRat?.isSome
  forward : times.Pairwise fun stored now => stored.atMost now
  lapsed : times.Pairwise fun stored now => ∀ t u : Rat, stored.toRat? = some t →
    now.toRat? = some u → 0 < ttl → t + ttl ≤ u → LapsedBy ttl stored now
  void : times.Pairwise fun stored now => ttl < 0 → LapsedBy ttl stored now

variable {ttl : Int} {stored now : Binary64} {t u : Rat}

theorem isInRange_of_natAbs_lt (h : ttl.natAbs < 2 * Binary64.leastNormal) :
    Binary64.isInRange ttl := by
  have hlimit : 2 * Binary64.leastNormal ≤ Nat.pow 2 1024 - Nat.pow 2 970 := by decide +kernel
  exact decide_eq_true (h.trans_le hlimit)

/-- The time to live is over by `now`, and the clock tells a tick after `now` from `now`. -/
theorem lapsedBy_of_le (httl : ttl.natAbs < 2 * Binary64.leastNormal) (hne : ttl ≠ 0)
    (ht : stored.toRat? = some t) (hu : now.toRat? = some u) (hexact : Binary64.IsExact u)
    (htick : Clock.hasPassed now now) (hle : t + ttl ≤ u) : LapsedBy ttl stored now := by
  intro text
  have hdeadline : (stored + .ofInt ttl).atMost now :=
    Binary64.add_atMost ht (Binary64.isExact_intCast httl) hu hexact hle
  rw [Store.deadline?_integer stored hne (isInRange_of_natAbs_lt httl)]
  show (!Clock.hasPassed (stored + .ofInt ttl) now) = false
  rw [Clock.hasPassed, Bool.not_not]
  refine Bool.eq_false_iff.2 fun hlive => ?_
  rw [Clock.hasPassed, Bool.not_eq_true'] at htick
  have := Binary64.atMost_trans hlive hdeadline
  rw [htick] at this
  cases this

/-- Times that are exact and in order, and between which a clock tells ticks, are kept. -/
theorem KeepsTime.of_tick {times : List Binary64} (httl : ttl.natAbs < 2 * Binary64.leastNormal)
    (hexact : ∀ now ∈ times, ∃ u, now.toRat? = some u ∧ Binary64.IsExact u)
    (hforward : times.Pairwise fun stored now => stored.atMost now)
    (htick : ∀ now ∈ times, Clock.hasPassed now now) : KeepsTime ttl times where
  finite now hnow := by
    obtain ⟨u, hu, -⟩ := hexact now hnow
    rw [hu]
    rfl
  forward := hforward
  lapsed := hforward.imp_of_mem fun {stored now} _ hnow _ t u ht hu hpos hle => by
    obtain ⟨u', hu', hexact⟩ := hexact now hnow
    obtain rfl : u' = u := Option.some.inj (hu'.symm.trans hu)
    exact lapsedBy_of_le httl (by omega) ht hu hexact (htick now hnow) hle
  void := hforward.imp_of_mem fun {stored now} hstored hnow hle hneg => by
    obtain ⟨t, ht, -⟩ := hexact stored hstored
    obtain ⟨u, hu, hexact⟩ := hexact now hnow
    refine lapsedBy_of_le httl (by omega) ht hu hexact (htick now hnow) ?_
    have horder := (Binary64.atMost_iff ht hu).1 hle
    have : (ttl : Rat) < 0 := by exact_mod_cast hneg
    linarith

/-! ### No time at all -/

/-- What is set for some seconds has not lapsed at the time at which it is set. -/
theorem not_hasPassed_add (hnow : now.toRat? = some t) (hpos : 0 < ttl) :
    Clock.hasPassed (now + .ofInt ttl) now = false := by
  have httl : (1 : Rat) / 1000000000 ≤ ttl := by
    have : (1 : Rat) ≤ ttl := by exact_mod_cast hpos
    linarith
  have hfinite : Clock.tick.toRat?.isSome := by decide +kernel
  obtain ⟨y, hy⟩ := Option.isSome_iff_exists.1 hfinite
  rw [Clock.hasPassed, Bool.not_eq_false']
  rcases Binary64.ofRat_of_nonneg (x := ttl) (by linarith) with hinfinite | ⟨z, hz, -⟩
  · have hdeadline : now + .ofInt ttl = .infinite false := by
      rw [Binary64.ofInt, hinfinite]
      cases now with
      | finite negative m k => rfl
      | infinite negative => cases hnow
      | nan => cases hnow
    rw [hdeadline]
    exact Binary64.atMost_infinite_of_atMost (Binary64.add_atMost_ofRat hnow hy le_rfl)
  · have htick : y ≤ z := (Binary64.atMost_iff hy hz).1 (Binary64.ofRat_mono httl)
    exact Binary64.add_atMost_add hnow hy hz htick

/-- What is set for a number of seconds that is not negative is found at the time at which it is
set. -/
theorem isLive_of_deadline? {deadline : Option Binary64} (hnow : now.toRat?.isSome)
    (hnonneg : 0 ≤ ttl) (h : Store.deadline? now (.integer ttl) = .ok deadline)
    (text : Text) : CacheEntry.isLive ⟨text, deadline⟩ now := by
  obtain ⟨t, ht⟩ := Option.isSome_iff_exists.1 hnow
  rcases hnonneg.eq_or_lt with rfl | hpos
  · obtain rfl := Except.ok.inj ((Store.deadline?_zero now).symm.trans h)
    rfl
  · by_cases hrange : Binary64.isInRange ttl
    · rw [Store.deadline?_integer now hpos.ne' hrange] at h
      obtain rfl := Except.ok.inj h
      show (!Clock.hasPassed (now + .ofInt ttl) now) = true
      rw [not_hasPassed_add ht hpos]
      rfl
    · rw [Store.deadline?_of_not_isInRange hrange now] at h
      cases h

end SenderPolicy.Cache
