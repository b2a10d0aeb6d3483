import SenderPolicy.Proofs.Cache.Effects

/-! The operations on a cache, as values.  What an operation answers and what becomes of the store
follow from the store, the time and the operation. -/

namespace SenderPolicy.Cache

open SenderPolicy.Action

inductive Operation
  | get (key : Text)
  | set (key value : Text) (ttl : Value) (logged : Bool)
  | delete (key : Text)

/-- What an operation answers: the text that is found, if there is one, nothing, or whether the key
was there. -/
inductive Reply
  | found (value : Option Text)
  | stored
  | deleted (present : Bool)
  deriving DecidableEq

def perform (cache : Cache) : Operation → Action Reply
  | .get key => return .found (← cache.get key)
  | .set key value ttl logged => do
    cache.set key value ttl logged
    return .stored
  | .delete key => return .deleted (← cache.delete key)

namespace Operation

def reply (cache : Cache) (e : Environment) (store : Store) : Operation → Except Failure Reply
  | .get key => (cache.backend.found e store (cache.space ++ key)).map .found
  | .set key value ttl _ =>
    (cache.backend.stored e store (cache.space ++ key) value ttl).1.map fun _ => .stored
  | .delete key => (cache.backend.removed e store (cache.space ++ key)).1.map .deleted

/-- The store after an operation. -/
def applied (cache : Cache) (e : Environment) (store : Store) : Operation → Store
  | .get _ => store
  | .set key value ttl _ => (cache.backend.stored e store (cache.space ++ key) value ttl).2
  | .delete key => (cache.backend.removed e store (cache.space ++ key)).2

end Operation

theorem exec_perform (cache : Cache) (operation : Operation) (e : Environment) (s : State) :
    (exec (cache.perform operation) e s).1 = operation.reply cache e s.store ∧
      (exec (cache.perform operation) e s).2.store = operation.applied cache e s.store := by
  cases operation with
  | get key =>
    rw [perform, exec_bind, Cache.get, Backend.exec_get, Operation.reply]
    cases cache.backend.found e s.store (cache.space ++ key) <;> exact ⟨rfl, rfl⟩
  | set key value ttl logged =>
    have hset := exec_set cache key value ttl logged e s
    rw [perform, exec_bind, Operation.reply, Operation.applied, ← hset]
    rcases exec (cache.set key value ttl logged) e s with ⟨failure | _, after⟩ <;> exact ⟨rfl, rfl⟩
  | delete key =>
    rw [perform, exec_bind, Cache.delete, exec_bind, Backend.exec_delete, Operation.reply,
      Operation.applied]
    rcases cache.backend.removed e s.store (cache.space ++ key) with ⟨failure | _ | _, after⟩ <;>
      exact ⟨rfl, rfl⟩

end SenderPolicy.Cache
