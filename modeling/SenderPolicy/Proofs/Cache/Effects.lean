import SenderPolicy.Cache.Manager
import SenderPolicy.Proofs.Action

/-! Caches: where the items of a store come from, and what becomes of a value that is set. -/

namespace SenderPolicy

open SenderPolicy.Action

namespace Store

variable {store : Store} {key : Text} {item : Text × CacheEntry}

theorem exists_of_find?_eq_some {now : Binary64} {value : Text}
    (h : store.find? now key = some value) :
    ∃ deadline, (key, ⟨value, deadline⟩) ∈ store ∧ CacheEntry.isLive ⟨value, deadline⟩ now := by
  obtain ⟨⟨found, deadline⟩, hentry, hvalue⟩ := Option.map_eq_some_iff.1 h
  obtain ⟨before, after, hsweep, -⟩ := List.lookup_eq_some_iff.1 hentry
  have hmem : (key, (⟨found, deadline⟩ : CacheEntry)) ∈ store.sweep now := by rw [hsweep]; simp
  obtain ⟨hstore, hlive⟩ := List.mem_filter.1 hmem
  obtain rfl : found = value := hvalue
  exact ⟨deadline, hstore, hlive⟩

theorem mem_of_mem_elapse {before now : Binary64} (h : item ∈ store.elapse before now) :
    item ∈ store :=
  (List.mem_filter.1 (List.mem_filter.1 h).1).1

/-- Without deadlines nothing lapses. -/
theorem sweep_of_lasting (h : ∀ item ∈ store, item.2.deadline = none) (now : Binary64) :
    store.sweep now = store :=
  List.filter_eq_self.2 fun item hitem => by rw [CacheEntry.isLive, h item hitem]

theorem find?_of_lasting (h : ∀ item ∈ store, item.2.deadline = none) (now later : Binary64)
    (key : Text) : store.find? now key = store.find? later key := by
  rw [find?, find?, sweep_of_lasting h, sweep_of_lasting h]

theorem mem_insert {entry : CacheEntry} (h : item ∈ store.insert key entry) :
    item = (key, entry) ∨ item ∈ store :=
  (List.mem_cons.1 h).imp_right fun h => (List.mem_filter.1 h).1

end Store

namespace Store

/-- A number of seconds that a clock can count tells a deadline. -/
theorem exists_deadline {ttl : Int} (h : Binary64.isInRange ttl) (now : Binary64) :
    ∃ deadline, deadline? now (.integer ttl) = .ok deadline := by
  by_cases hzero : ttl = 0
  · exact ⟨none, hzero ▸ deadline?_zero now⟩
  · exact ⟨_, deadline?_integer now hzero h⟩

theorem deadline?_of_not_isInRange {ttl : Int} (h : ¬ Binary64.isInRange ttl)
    (now : Binary64) : deadline? now (.integer ttl) = .error .tooLong := by
  have hzero : ttl ≠ 0 := fun hzero => h (hzero ▸ by decide +kernel)
  simp [deadline?, Value.isVoid, hzero, Clock.after, Clock.seconds, h, Except.map]

end Store

/-- In memory, a value is stored even where its deadline cannot be told. -/
theorem Backend.stored_of_not_isInRange {ttl : Int} {e : Environment}
    (h : ¬ Binary64.isInRange ttl) (store : Store) (key value : Text) :
    memory.stored e store key value (.integer ttl) =
      (.error (.duration .tooLong), store.insert key ⟨value, none⟩) := by
  rw [stored, Store.deadline?_of_not_isInRange h]
  rfl

/-- Only a database fails to find. -/
theorem Backend.exists_of_found_eq_error {backend : Backend} {e : Environment} {store : Store}
    {key : Text} {failure : Failure} (h : backend.found e store key = .error failure) :
    ∃ fault, failure = .redis fault := by
  cases backend with
  | memory => cases h
  | redis url =>
    rw [found] at h
    cases hget : e.redis.get store e.clock key with
    | ok value? => rw [hget] at h; cases h
    | error fault => rw [hget] at h; exact ⟨fault, (Except.error.inj h).symm⟩

/-- A value is not set for want of a deadline, or for what the database says. -/
theorem Backend.exists_of_stored_eq_error {backend : Backend} {e : Environment} {store : Store}
    {key value : Text} {ttl : Value} {failure : Failure}
    (h : (backend.stored e store key value ttl).1 = .error failure) :
    (∃ fault, failure = .duration fault) ∨ ∃ fault, failure = .redis fault := by
  cases backend with
  | memory =>
    rw [stored] at h
    cases hdeadline : Store.deadline? e.clock ttl with
    | ok deadline => rw [hdeadline] at h; cases h
    | error fault => rw [hdeadline] at h; exact .inl ⟨fault, (Except.error.inj h).symm⟩
  | redis url =>
    rw [stored] at h
    rcases hset : e.redis.set store e.clock key value ttl with ⟨fault | _, after⟩
    · rw [hset] at h; exact .inr ⟨fault, (Except.error.inj h).symm⟩
    · rw [hset] at h; cases h

namespace Cache

theorem exec_set (cache : Cache) (key value : Text) (ttl : Value) (logged : Bool) (e : Environment)
    (s : State) :
    ((exec (cache.set key value ttl logged) e s).1,
        (exec (cache.set key value ttl logged) e s).2.store) =
      cache.backend.stored e s.store (cache.space ++ key) value ttl := by
  unfold Cache.set
  simp only [exec_bind, Backend.exec_set]
  rcases cache.backend.stored e s.store (cache.space ++ key) value ttl with ⟨failure | _, after⟩
  · rfl
  · cases logged <;> rfl

end Cache

end SenderPolicy
