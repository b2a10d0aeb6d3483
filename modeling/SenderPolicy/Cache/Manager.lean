import SenderPolicy.Action

/-! Caches: a backend, and the text before every key, by which several services share one store. -/

namespace SenderPolicy

open SenderPolicy.Action

namespace Backend

/-- What is found under a stored key. -/
def found (backend : Backend) (e : Environment) (store : Store) (key : Text) :
    Except Failure (Option Text) :=
  match backend with
  | .memory => .ok (store.find? e.clock key)
  | .redis _ => (e.redis.get store e.clock key).mapError .redis

/-- How setting a value for `ttl` seconds ends, and the store after it.  In memory, a value is
stored even if `ttl` tells no deadline, which is a failure after that. -/
def stored (backend : Backend) (e : Environment) (store : Store) (key value : Text)
    (ttl : Value) : Except Failure Unit × Store :=
  match backend with
  | .memory =>
    let deadline := Store.deadline? e.clock ttl
    ((deadline.mapError .duration).map fun _ => (),
      store.insert key ⟨value, deadline.toOption.join⟩)
  | .redis _ =>
    let (answer, after) := e.redis.set store e.clock key value ttl
    (answer.mapError .redis, after)

/-- Whether deleting a key removes anything, and the store after it. -/
def removed (backend : Backend) (e : Environment) (store : Store) (key : Text) :
    Except Failure Bool × Store :=
  match backend with
  | .memory => (.ok (store.find? e.clock key).isSome, store.erase key)
  | .redis _ =>
    let (answer, after) := e.redis.delete store e.clock key
    ((answer.map fun count => decide (0 < count)).mapError .redis, after)

@[simp] theorem found_memory (e : Environment) (store : Store) (key : Text) :
    memory.found e store key = .ok (store.find? e.clock key) := rfl

theorem stored_memory {ttl : Value} {e : Environment} {deadline : Option Binary64}
    (h : Store.deadline? e.clock ttl = .ok deadline) (store : Store) (key value : Text) :
    memory.stored e store key value ttl = (.ok (), store.insert key ⟨value, deadline⟩) := by
  rw [stored, h]; rfl

def get (backend : Backend) (key : Text) : Action (Option Text) := do
  record (.cache backend (.get key))
  onStore fun e store => (backend.found e store key, store)

@[simp] theorem exec_get (backend : Backend) (key : Text) (e : Environment) (s : State) :
    exec (backend.get key) e s =
      (backend.found e s.store key,
        { s with trace := s.trace ++ [.cache backend (.get key)] }) := by
  simp [get, exec_bind]

def set (backend : Backend) (key value : Text) (ttl : Value) : Action Unit := do
  record (.cache backend (.set key value ttl))
  onStore fun e store => backend.stored e store key value ttl

theorem exec_set (backend : Backend) (key value : Text) (ttl : Value) (e : Environment)
    (s : State) :
    exec (backend.set key value ttl) e s =
      ((backend.stored e s.store key value ttl).1,
        ⟨(backend.stored e s.store key value ttl).2,
          s.trace ++ [.cache backend (.set key value ttl)]⟩) := by
  simp [set, exec_bind]

/-- Removes a stored key, and tells whether it was there. -/
def delete (backend : Backend) (key : Text) : Action Bool := do
  record (.cache backend (.delete key))
  onStore fun e store => backend.removed e store key

@[simp] theorem exec_delete (backend : Backend) (key : Text) (e : Environment) (s : State) :
    exec (backend.delete key) e s =
      ((backend.removed e s.store key).1,
        ⟨(backend.removed e s.store key).2, s.trace ++ [.cache backend (.delete key)]⟩) := by
  simp [delete, exec_bind]

end Backend

/-- A cache: its backend, and the text that stands before every key. -/
structure Cache where
  backend : Backend
  space : Text
  deriving DecidableEq, Repr

namespace Cache

/-- The cache of some settings: in Redis where a host is set, in memory elsewhere. -/
def ofSettings (s : Settings) : Cache where
  backend := if s.usesRedis then .redis s.redisUrl else .memory
  space := s.cacheNamespace

def opening (cache : Cache) : List Event :=
  match cache.backend with
  | .memory => []
  | .redis url => [.cache (.redis url) .connect]

def key (parts : List Text) : Text := Text.join [':'] parts

def get (cache : Cache) (key : Text) : Action (Option Text) :=
  cache.backend.get (cache.space ++ key)

/-- Caches a value for `ttl` seconds, and logs that if `logged` says so. -/
def set (cache : Cache) (key value : Text) (ttl : Value) (logged : Bool) : Action Unit := do
  cache.backend.set (cache.space ++ key) value ttl
  if logged then
    log .cache .debug ("Cached " ++ key ++ " = " ++ value ++ " for " ++ ttl.toText ++ "s")

/-- Removes a key, and logs that if it was there. -/
def delete (cache : Cache) (key : Text) : Action Bool := do
  let found ← cache.backend.delete (cache.space ++ key)
  if found then log .cache .debug ("Evicted " ++ key)
  return found

end Cache

end SenderPolicy
