import SenderPolicy.Action

/-! Runs of actions that share one store.  Between two calls the clock may move, the data of the
domain name system may change, and the store may let go of a key, as a database does that sees to
deadlines itself. -/

namespace SenderPolicy.Run

open SenderPolicy.Action

variable {α β : Type}

/-- Something that happens in a run. -/
inductive Step (α : Type)
  | advance (seconds : Value)
  | publish (zone : Zone)
  | lapse (key : Text)
  | call (request : α)

/-- A call that was made, how it ended, and the events that it added. -/
structure Call (α β : Type) where
  request : α
  answer : Except Failure β
  events : List Event

/-- The calls of a run that starts in an environment and on a store. -/
def calls (act : α → Action β) (e : Environment) (store : Store) : List (Step α) → List (Call α β)
  | [] => []
  | .advance seconds :: steps =>
    match e.advance seconds with
    | .ok later => calls act later (store.elapse e.clock later.clock) steps
    | .error _ => calls act e store steps
  | .publish zone :: steps => calls act { e with zone } store steps
  | .lapse key :: steps => calls act e (store.erase key) steps
  | .call request :: steps =>
    let (answer, after) := exec (act request) e ⟨store, []⟩
    ⟨request, answer, after.trace⟩ :: calls act e after.store steps

theorem calls_call (act : α → Action β) (e : Environment) (store : Store) (request : α)
    (steps : List (Step α)) :
    calls act e store (.call request :: steps) =
      ⟨request, (exec (act request) e ⟨store, []⟩).1, (exec (act request) e ⟨store, []⟩).2.trace⟩ ::
        calls act e (exec (act request) e ⟨store, []⟩).2.store steps := rfl

/-- Nothing that is in the store of a run lapses: neither is it let go of, nor has its deadline
passed at a time to which the clock moves; and the clock tells a time at every call. -/
def NothingLapses (act : α → Action β) (e : Environment) (store : Store) : List (Step α) → Prop
  | [] => True
  | .advance seconds :: steps =>
    match e.advance seconds with
    | .ok later =>
      store.sweep later.clock = store ∧
        NothingLapses act later (store.elapse e.clock later.clock) steps
    | .error _ => NothingLapses act e store steps
  | .publish zone :: steps => NothingLapses act { e with zone } store steps
  | .lapse key :: steps => store.erase key = store ∧ NothingLapses act e (store.erase key) steps
  | .call request :: steps =>
    e.clock.toRat?.isSome ∧
      NothingLapses act e (exec (act request) e ⟨store, []⟩).2.store steps

/-- Whether something lapses is found by the run itself. -/
def decideNothingLapses (act : α → Action β) :
    (e : Environment) → (store : Store) → (steps : List (Step α)) →
      Decidable (NothingLapses act e store steps)
  | _, _, [] => isTrue trivial
  | e, store, .advance seconds :: steps =>
    match hmoved : e.advance seconds with
    | .ok later =>
      have := decideNothingLapses act later (store.elapse e.clock later.clock) steps
      decidable_of_iff (store.sweep later.clock = store ∧
        NothingLapses act later (store.elapse e.clock later.clock) steps) (by
          rw [NothingLapses, hmoved])
    | .error fault =>
      have := decideNothingLapses act e store steps
      decidable_of_iff (NothingLapses act e store steps) (by rw [NothingLapses, hmoved])
  | e, store, .publish zone :: steps => decideNothingLapses act { e with zone } store steps
  | e, store, .lapse key :: steps =>
    have := decideNothingLapses act e (store.erase key) steps
    inferInstanceAs (Decidable (_ ∧ _))
  | e, store, .call request :: steps =>
    have := decideNothingLapses act e (exec (act request) e ⟨store, []⟩).2.store steps
    inferInstanceAs (Decidable (_ ∧ _))

instance (act : α → Action β) (e : Environment) (store : Store) (steps : List (Step α)) :
    Decidable (NothingLapses act e store steps) := decideNothingLapses act e store steps

end SenderPolicy.Run
