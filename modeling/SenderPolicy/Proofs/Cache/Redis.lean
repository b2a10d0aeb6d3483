import SenderPolicy.Cache.Manager
import SenderPolicy.Proofs.Text.Utf8

/-! What is relied on of a Redis database.  `StoresByKey` is that a command concerns its own key
alone, and that it may fail; `IsDocumented` that a time to live has to be positive and not too long,
and that texts with surrogates are not sent; `IsReached` that nothing else fails.  Caches in memory
store by key as well, and never fail to find or to delete. -/

namespace SenderPolicy

namespace Redis

/-- A database that stores by exact key: each command fails, whatever is stored, and then it changes
nothing; or it does to its key what it says. -/
structure StoresByKey (redis : Redis) : Prop where
  get_cases : ∀ now key, (∃ fault, ∀ store, redis.get store now key = .error fault) ∨
    ∀ store : Store, redis.get store now key = .ok (store.find? now key)
  set_cases : ∀ now key value ttl,
    (∃ fault, ∀ store, redis.set store now key value ttl = (.error fault, store)) ∨
    ∀ store, redis.set store now key value ttl = (.ok (), store.insert key ⟨value, none⟩)
  delete_cases : ∀ now key,
    (∃ fault, ∀ store, redis.delete store now key = (.error fault, store)) ∨
    ∀ store : Store, redis.delete store now key =
      (.ok (if (store.find? now key).isSome then 1 else 0), store.erase key)

/-- A database that takes a time to live from one second to the longest one only, and whose client
sends no surrogates. -/
structure IsDocumented (redis : Redis) : Prop extends StoresByKey redis where
  refuses : ∀ now key value ttl, ¬ (1 ≤ ttl ∧ ttl ≤ longestTtl) →
    ∃ fault, ∀ store, redis.set store now key value (.integer ttl) = (.error fault, store)
  get_unsent : ∀ now (key : Text), ¬ key.isEncodable →
    ∃ fault, ∀ store, redis.get store now key = .error fault
  set_unsent : ∀ now (key value : Text) ttl, ¬ (key.isEncodable ∧ value.isEncodable) →
    ∃ fault, ∀ store, redis.set store now key value ttl = (.error fault, store)
  delete_unsent : ∀ now (key : Text), ¬ key.isEncodable →
    ∃ fault, ∀ store, redis.delete store now key = (.error fault, store)

/-- A database whose client reaches it at every command that can be sent. -/
structure IsReached (redis : Redis) : Prop extends IsDocumented redis where
  get_eq : ∀ store now (key : Text), key.isEncodable →
    redis.get store now key = .ok (store.find? now key)
  set_eq : ∀ store now (key value : Text) ttl, key.isEncodable → value.isEncodable → 1 ≤ ttl →
    ttl ≤ longestTtl →
    redis.set store now key value (.integer ttl) = (.ok (), store.insert key ⟨value, none⟩)
  delete_eq : ∀ store now (key : Text), key.isEncodable → redis.delete store now key =
    (.ok (if (store.find? now key).isSome then 1 else 0), store.erase key)

/-- What a database takes: texts without surrogates, for a time to live from one second to the
longest one. -/
structure Takes (key value : Text) (ttl : Int) : Prop where
  key : key.isEncodable
  value : value.isEncodable
  pos : 1 ≤ ttl
  le_longest : ttl ≤ longestTtl

theorem IsReached.set_of_takes {redis : Redis} {key value : Text} {ttl : Int}
    (h : redis.IsReached) (htakes : Takes key value ttl) (store : Store) (now : Binary64) :
    redis.set store now key value (.integer ttl) = (.ok (), store.insert key ⟨value, none⟩) :=
  h.set_eq store now key value ttl htakes.key htakes.value htakes.pos htakes.le_longest

/-- A database that does not take a value stores nothing. -/
theorem IsDocumented.set_of_not_takes {redis : Redis} {key value : Text} {ttl : Int}
    (h : redis.IsDocumented) (htakes : ¬Takes key value ttl) (now : Binary64) :
    ∃ fault, ∀ store, redis.set store now key value (.integer ttl) = (.error fault, store) := by
  by_cases hsent : key.isEncodable ∧ value.isEncodable
  · exact h.refuses now key value ttl fun httl => htakes ⟨hsent.1, hsent.2, httl.1, httl.2⟩
  · exact h.set_unsent now key value _ hsent

theorem unsent?_eq_none_iff {texts : List Text} :
    unsent? texts = none ↔ ∀ t ∈ texts, t.isEncodable := by
  simp [unsent?, Text.encodeFault?_eq_none_iff, Text.isEncodable]

theorem exists_unsent? (texts : List Text) (h : ¬ ∀ t ∈ texts, t.isEncodable) :
    ∃ fault, unsent? texts = some fault :=
  Option.ne_none_iff_exists'.1 fun hnone => h (unsent?_eq_none_iff.1 hnone)

theorem exists_setFault?_of_not_mem {ttl : Int} (h : ¬ (1 ≤ ttl ∧ ttl ≤ longestTtl))
    (key value : Text) : ∃ fault, setFault? key value (.integer ttl) = some fault := by
  simp only [setFault?, if_neg h]
  cases unsent? [key, value] with
  | some fault => exact ⟨fault, rfl⟩
  | none => split <;> exact ⟨_, rfl⟩

theorem exists_setFault?_of_unsent {key value : Text}
    (h : ¬ (key.isEncodable ∧ value.isEncodable)) (ttl : Value) :
    ∃ fault, setFault? key value ttl = some fault := by
  obtain ⟨fault, hfault⟩ := exists_unsent? [key, value] (by simpa using h)
  cases ttl with
  | integer ttl => exact ⟨fault, by rw [setFault?, hfault]; rfl⟩
  | _ => exact ⟨_, rfl⟩

theorem setFault?_eq_none {key value : Text} {ttl : Int} (hkey : key.isEncodable)
    (hvalue : value.isEncodable) (hpos : 1 ≤ ttl) (hlong : ttl ≤ longestTtl) :
    setFault? key value (.integer ttl) = none := by
  have hwritten : ttl.natAbs < Text.leastUnwritten := by
    have hlimit : longestTtl.natAbs < Text.leastUnwritten := by decide +kernel
    omega
  have hsent : unsent? [key, value] = none := unsent?_eq_none_iff.2 (by simp [hkey, hvalue])
  simp only [setFault?, hsent, Text.ofInt?_of_lt hwritten, if_pos (And.intro hpos hlong)]
  rfl

theorem set_documented_of_some {key value : Text} {ttl : Value} {fault : RedisFault}
    (h : setFault? key value ttl = some fault) (store : Store) (now : Binary64) :
    documented.set store now key value ttl = (.error fault, store) := by
  simp only [documented, h]

theorem set_documented_of_none {key value : Text} {ttl : Value}
    (h : setFault? key value ttl = none) (store : Store) (now : Binary64) :
    documented.set store now key value ttl = (.ok (), store.insert key ⟨value, none⟩) := by
  simp only [documented, h]

theorem storesByKey_documented : StoresByKey documented where
  get_cases now key := by
    cases h : unsent? [key] with
    | none => exact .inr fun store => by simp only [documented, h]
    | some fault => exact .inl ⟨fault, fun store => by simp only [documented, h]⟩
  set_cases now key value ttl := by
    cases h : setFault? key value ttl with
    | none => exact .inr fun store => set_documented_of_none h store now
    | some fault => exact .inl ⟨fault, fun store => set_documented_of_some h store now⟩
  delete_cases now key := by
    cases h : unsent? [key] with
    | none => exact .inr fun store => by simp only [documented, h]
    | some fault => exact .inl ⟨fault, fun store => by simp only [documented, h]⟩

theorem isReached_documented : IsReached documented where
  toStoresByKey := storesByKey_documented
  refuses now key value _ h := by
    obtain ⟨fault, hfault⟩ := exists_setFault?_of_not_mem h key value
    exact ⟨fault, fun store => set_documented_of_some hfault store now⟩
  get_unsent now key h := by
    obtain ⟨fault, hfault⟩ := exists_unsent? [key] (by simpa using h)
    exact ⟨fault, fun store => by simp only [documented, hfault]⟩
  set_unsent now key value ttl h := by
    obtain ⟨fault, hfault⟩ := exists_setFault?_of_unsent h ttl
    exact ⟨fault, fun store => set_documented_of_some hfault store now⟩
  delete_unsent now key h := by
    obtain ⟨fault, hfault⟩ := exists_unsent? [key] (by simpa using h)
    exact ⟨fault, fun store => by simp only [documented, hfault]⟩
  get_eq store now key hkey := by
    simp only [documented, unsent?_eq_none_iff.2 (List.forall_mem_singleton.2 hkey)]
  set_eq store now key value _ hkey hvalue hpos hlong :=
    set_documented_of_none (setFault?_eq_none hkey hvalue hpos hlong) store now
  delete_eq store now key hkey := by
    simp only [documented, unsent?_eq_none_iff.2 (List.forall_mem_singleton.2 hkey)]

end Redis

namespace Backend

/-- A backend that stores by exact key, as memory does, and as a database is relied on to do. -/
def StoresByKey (backend : Backend) (redis : Redis) : Prop :=
  ∀ url, backend = .redis url → redis.StoresByKey

variable {backend : Backend} {e : Environment}

theorem storesByKey_memory (redis : Redis) : StoresByKey .memory redis := nofun

theorem StoresByKey.found_cases (h : backend.StoresByKey e.redis) (key : Text) :
    (∃ failure, ∀ store, backend.found e store key = .error failure) ∨
      ∀ store, backend.found e store key = .ok (store.find? e.clock key) := by
  cases backend with
  | memory => exact .inr fun _ => rfl
  | redis url =>
    rcases (h url rfl).get_cases e.clock key with ⟨fault, hget⟩ | hget
    · exact .inl ⟨.redis fault, fun store => by rw [found, hget]; rfl⟩
    · exact .inr fun store => by rw [found, hget]; rfl

theorem StoresByKey.find?_of_found {store : Store} {key : Text} {value? : Option Text}
    (h : backend.StoresByKey e.redis) (hfound : backend.found e store key = .ok value?) :
    store.find? e.clock key = value? := by
  rcases h.found_cases key with ⟨failure, herror⟩ | hfind
  · cases (herror store).symm.trans hfound
  · exact Except.ok.inj ((hfind store).symm.trans hfound)

/-- The deadline of what is stored; none, if it cannot be told, or if the database sees to it. -/
def deadline (backend : Backend) (now : Binary64) (ttl : Value) : Option Binary64 :=
  match backend with
  | .memory => (Store.deadline? now ttl).toOption.join
  | .redis _ => none

/-- Setting a value fails and changes nothing, or it stores the value under its key, whatever it
answers then. -/
theorem StoresByKey.stored_cases (h : backend.StoresByKey e.redis) (key value : Text)
    (ttl : Value) :
    (∃ failure, ∀ store, backend.stored e store key value ttl = (.error failure, store)) ∨
      ∃ answer, ∀ store, backend.stored e store key value ttl =
        (answer, store.insert key ⟨value, backend.deadline e.clock ttl⟩) := by
  cases backend with
  | memory => exact .inr ⟨_, fun _ => rfl⟩
  | redis url =>
    rcases (h url rfl).set_cases e.clock key value ttl with ⟨fault, hset⟩ | hset
    · exact .inl ⟨.redis fault, fun store => by rw [stored, hset]; rfl⟩
    · exact .inr ⟨.ok (), fun store => by rw [stored, hset]; rfl⟩

theorem StoresByKey.removed_cases (h : backend.StoresByKey e.redis) (key : Text) :
    (∃ answer, ∀ store, backend.removed e store key = (answer, store)) ∨
      ∀ store, backend.removed e store key =
        (.ok (store.find? e.clock key).isSome, store.erase key) := by
  cases backend with
  | memory => exact .inr fun _ => rfl
  | redis url =>
    rcases (h url rfl).delete_cases e.clock key with ⟨fault, hdelete⟩ | hdelete
    · exact .inl ⟨.error (.redis fault), fun store => by rw [removed, hdelete]; rfl⟩
    · refine .inr fun store => ?_
      rw [removed, hdelete]
      cases (store.find? e.clock key).isSome <;> rfl

/-- A backend that answers what it is asked for a key.  A database has to be reached for that, and
the key has to be one that can be sent. -/
def Answers (backend : Backend) (redis : Redis) (key : Text) : Prop :=
  ∀ url, backend = .redis url → redis.IsReached ∧ key.isEncodable

/-- Every such backend takes some time to live, and lets nothing lapse for it. -/
theorem exists_stored_eq {key : Text} (h : backend.Answers e.redis key) :
    ∃ ttl, ∀ store (value : Text), value.isEncodable →
      backend.stored e store key value ttl = (.ok (), store.insert key ⟨value, none⟩) := by
  cases backend with
  | memory => exact ⟨.integer 0, fun store value _ => stored_memory rfl store key value⟩
  | redis url =>
    obtain ⟨hreached, hkey⟩ := h url rfl
    refine ⟨.integer 1, fun store value hvalue => ?_⟩
    rw [stored, hreached.set_eq store e.clock key value 1 hkey hvalue (by decide) (by decide)]
    rfl

theorem found_eq {key : Text} (h : backend.Answers e.redis key) (store : Store) :
    backend.found e store key = .ok (store.find? e.clock key) := by
  cases backend with
  | memory => rfl
  | redis url =>
    obtain ⟨hreached, hkey⟩ := h url rfl
    rw [found, hreached.get_eq _ _ _ hkey]
    rfl

theorem removed_eq {key : Text} (h : backend.Answers e.redis key) (store : Store) :
    backend.removed e store key = (.ok (store.find? e.clock key).isSome, store.erase key) := by
  cases backend with
  | memory => rfl
  | redis url =>
    obtain ⟨hreached, hkey⟩ := h url rfl
    rw [removed, hreached.delete_eq _ _ _ hkey]
    cases (store.find? e.clock key).isSome <;> rfl

end Backend

end SenderPolicy
