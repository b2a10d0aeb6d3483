import SenderPolicy.Cache.Clock

/-! The store of a cache: values by key, each with the time at which it lapses.  What has lapsed is
never found, and it is swept out before the clock moves, so that it does not come back when the
clock is set back. -/

namespace SenderPolicy

/-- A cached value, and the time at which it lapses, if there is one. -/
structure CacheEntry where
  value : Text
  deadline : Option Binary64
  deriving DecidableEq, Repr

/-- An entry is there until its deadline has passed. -/
def CacheEntry.isLive (e : CacheEntry) (now : Binary64) : Bool :=
  match e.deadline with
  | none => true
  | some deadline => !Clock.hasPassed deadline now

/-- The entries of a store, with one for each key at most. -/
abbrev Store := List (Text × CacheEntry)

namespace Store

def erase (store : Store) (key : Text) : Store := store.filter (·.1 != key)

def insert (store : Store) (key : Text) (entry : CacheEntry) : Store :=
  (key, entry) :: store.erase key

def sweep (store : Store) (now : Binary64) : Store := store.filter (·.2.isLive now)

/-- The store after the clock has moved.  What has lapsed at either time is gone. -/
def elapse (store : Store) (before now : Binary64) : Store := (store.sweep before).sweep now

def find? (store : Store) (now : Binary64) (key : Text) : Option Text :=
  ((store.sweep now).lookup key).map CacheEntry.value

theorem erase_cons (k : Text) (e : CacheEntry) (store : Store) (key : Text) :
    erase ((k, e) :: store) key =
      if k = key then store.erase key else (k, e) :: store.erase key := by
  by_cases h : k = key <;> simp [erase, h]

theorem lookup_erase_self (store : Store) (key : Text) : (store.erase key).lookup key = none := by
  induction store with
  | nil => rfl
  | cons entry store ih =>
    obtain ⟨k, e⟩ := entry
    rw [erase_cons]
    split
    · exact ih
    · next h => rw [List.lookup_cons, beq_eq_false_iff_ne.2 (Ne.symm h)]; exact ih

theorem lookup_erase_ne (store : Store) {key other : Text} (h : other ≠ key) :
    (store.erase key).lookup other = store.lookup other := by
  induction store with
  | nil => rfl
  | cons entry store ih =>
    obtain ⟨k, e⟩ := entry
    rw [erase_cons]
    split
    · next hk => rw [List.lookup_cons, beq_eq_false_iff_ne.2 (hk ▸ h)]; exact ih
    · rw [List.lookup_cons, List.lookup_cons, ih]

theorem sweep_erase (store : Store) (now : Binary64) (key : Text) :
    (store.erase key).sweep now = (store.sweep now).erase key := by
  simp only [sweep, erase, List.filter_filter, Bool.and_comm]

theorem sweep_insert (store : Store) (now : Binary64) (key : Text) (e : CacheEntry) :
    (store.insert key e).sweep now =
      if e.isLive now then (store.sweep now).insert key e else (store.sweep now).erase key := by
  simp only [insert, ← sweep_erase]
  by_cases h : e.isLive now <;> simp [sweep, h]

@[simp] theorem sweep_sweep (store : Store) (now : Binary64) :
    (store.sweep now).sweep now = store.sweep now := by
  simp [sweep, List.filter_filter]

/-- Sweeping takes nothing away that could be found. -/
@[simp] theorem find?_sweep (store : Store) (now : Binary64) (key : Text) :
    (store.sweep now).find? now key = store.find? now key := by
  simp [find?]

@[simp] theorem find?_insert_self (store : Store) (now : Binary64) (key : Text) (e : CacheEntry) :
    (store.insert key e).find? now key = if e.isLive now then some e.value else none := by
  rw [find?, sweep_insert]
  split
  · simp [insert]
  · rw [lookup_erase_self]; rfl

theorem find?_insert_ne (store : Store) (now : Binary64) {key other : Text} (e : CacheEntry)
    (h : other ≠ key) : (store.insert key e).find? now other = store.find? now other := by
  have hb : (other == key) = false := by simpa using h
  rw [find?, sweep_insert]
  split
  · rw [insert, List.lookup_cons, hb, lookup_erase_ne _ h]; rfl
  · rw [lookup_erase_ne _ h]; rfl

@[simp] theorem find?_erase_self (store : Store) (now : Binary64) (key : Text) :
    (store.erase key).find? now key = none := by
  rw [find?, sweep_erase, lookup_erase_self]; rfl

theorem find?_erase_ne (store : Store) (now : Binary64) {key other : Text} (h : other ≠ key) :
    (store.erase key).find? now other = store.find? now other := by
  rw [find?, sweep_erase, lookup_erase_ne _ h]; rfl

/-- The deadline of a value that is set at the time `now` for `ttl` seconds, if it has one.  A void
`ttl` sets none, and that of a negative `ttl` has passed already. -/
def deadline? (now : Binary64) (ttl : Value) : Except DurationFault (Option Binary64) :=
  if ttl.isVoid then .ok none else (Clock.after now ttl).map some

@[simp] theorem deadline?_zero (now : Binary64) : deadline? now (.integer 0) = .ok none := rfl

theorem deadline?_integer {ttl : Int} (now : Binary64) (h : ttl ≠ 0)
    (hr : Binary64.isInRange ttl) :
    deadline? now (.integer ttl) = .ok (some (now + .ofInt ttl)) := by
  simp [deadline?, Value.isVoid, h, Clock.after_integer now hr, Except.map]

end Store

/-- Where a cache keeps its values: in memory, or in a Redis database. -/
inductive Backend
  | memory
  | redis (url : Text)
  deriving DecidableEq, Repr

def Backend.name : Backend → Text
  | .memory => "memory"
  | .redis _ => "redis"

end SenderPolicy
