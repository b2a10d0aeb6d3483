import Mathlib.Logic.Function.Basic
import SenderPolicy.Proofs.Cache.Operations
import SenderPolicy.Proofs.Cache.Redis
import SenderPolicy.Proofs.Cache.Time
import SenderPolicy.Proofs.Run

/-! What a cache holds.  While nothing lapses, a cache answers as a map from keys to texts does,
whatever its backend and the text before its keys are; a database has to be reached for that, to be
sent no surrogates, and not to refuse a time to live.  In memory, a time to live that is too long
for a clock is a failure, which comes after the value has been stored. -/

namespace SenderPolicy

/-- A move of the clock at which nothing lapses leaves everything to be found. -/
theorem Store.find?_elapse_of_sweep {store : Store} {later : Binary64}
    (h : store.sweep later = store) (now : Binary64) (key : Text) :
    (store.elapse now later).find? later key = store.find? now key := by
  have hswept : (store.sweep now).sweep later = (store.sweep later).sweep now := by
    simp only [sweep, List.filter_filter, Bool.and_comm]
  rw [elapse, find?_sweep, find?, hswept, h, find?]

namespace Cache

open SenderPolicy.Action SenderPolicy.Run

/-- Texts by the keys by which a cache is asked for them. -/
abbrev Contents := Text → Option Text

namespace Contents

/-- What an operation answers. -/
def reply (m : Contents) : Operation → Reply
  | .get key => .found (m key)
  | .set _ _ _ _ => .stored
  | .delete key => .deleted (m key).isSome

/-- What becomes of the texts by an operation. -/
def after (m : Contents) : Operation → Contents
  | .get _ => m
  | .set key value _ _ => Function.update m key (some value)
  | .delete key => Function.update m key none

/-- The operations of a run, each with what it answers. -/
def replies (m : Contents) : List (Step Operation) → List (Operation × Reply)
  | [] => []
  | .call operation :: steps => (operation, m.reply operation) :: (m.after operation).replies steps
  | .advance _ :: steps | .publish _ :: steps | .lapse _ :: steps => m.replies steps

theorem call_mem_of_mem_replies {m : Contents} {steps : List (Step Operation)}
    {operation : Operation} {reply : Reply} (h : (operation, reply) ∈ m.replies steps) :
    .call operation ∈ steps := by
  induction steps generalizing m with
  | nil => cases h
  | cons step steps ih =>
    cases step with
    | call other =>
      rcases List.mem_cons.1 h with h | h
      · rw [(Prod.mk.inj h).1]
        exact List.mem_cons_self
      · exact List.mem_cons_of_mem _ (ih h)
    | advance seconds => exact List.mem_cons_of_mem _ (ih h)
    | publish zone => exact List.mem_cons_of_mem _ (ih h)
    | lapse key => exact List.mem_cons_of_mem _ (ih h)

end Contents

/-- Every time to live that a database takes can be counted by clocks. -/
theorem isInRange_of_le_longestTtl {ttl : Int} (hpos : 0 < ttl) (hlong : ttl ≤ Redis.longestTtl) :
    Binary64.isInRange ttl := by
  have hlimit : Redis.longestTtl < ((Nat.pow 2 1024 - Nat.pow 2 970 : Nat) : Int) := by
    decide +kernel
  exact decide_eq_true (Int.ofNat_lt.1 (by rw [Int.natAbs_of_nonneg hpos.le]; omega))

namespace Operation

/-- A value is set for a positive number of seconds only, and a database is sent texts without
surrogates and a time to live that it does not refuse. -/
def IsLasting (cache : Cache) : Operation → Prop
  | .set key value ttl _ =>
    ∃ n : Int, ttl = .integer n ∧ 0 < n ∧ (cache.backend ≠ .memory →
      (cache.space ++ key).isEncodable ∧ value.isEncodable ∧ n ≤ Redis.longestTtl)
  | .get key | .delete key => cache.backend ≠ .memory → (cache.space ++ key).isEncodable

/-- Whether a value is set for more seconds than a clock counts. -/
def isTooLong : Operation → Bool
  | .set _ _ (.integer n) _ => !Binary64.isInRange n
  | _ => false

variable {operation : Operation} {cache : Cache} {space : Text}

theorem IsLasting.memory (h : operation.IsLasting cache) :
    operation.IsLasting ⟨.memory, space⟩ := by
  cases operation with
  | set key value ttl logged =>
    obtain ⟨n, hn, hpos, -⟩ := h
    exact ⟨n, hn, hpos, absurd rfl⟩
  | _ => exact absurd rfl

/-- What a database takes is not too long for clocks. -/
theorem IsLasting.not_tooLong (h : operation.IsLasting cache) (hbackend : cache.backend ≠ .memory) :
    operation.isTooLong = false := by
  cases operation with
  | set key value ttl logged =>
    obtain ⟨n, rfl, hpos, hsent⟩ := h
    obtain ⟨-, -, hlong⟩ := hsent hbackend
    rw [isTooLong, isInRange_of_le_longestTtl hpos hlong, Bool.not_true]
  | _ => rfl

/-- How an operation with a reply ends on a backend. -/
def ended (backend : Backend) (operation : Operation) (reply : Reply) : Except Failure Reply :=
  if backend = .memory ∧ operation.isTooLong then .error (.duration .tooLong) else .ok reply

end Operation

variable {backend : Backend} {space : Text} {e : Environment} {now : Binary64} {store : Store}
  {m : Contents} {ttl : Int}

/-- What is found under a space is what it is said to hold. -/
def Holds (space : Text) (now : Binary64) (store : Store) (m : Contents) : Prop :=
  ∀ key, store.find? now (space ++ key) = m key

/-! ### Operations -/

theorem answers_of_isEncodable {key : Text}
    (hreached : ∀ url, backend = .redis url → e.redis.IsReached)
    (hkey : backend ≠ .memory → key.isEncodable) : backend.Answers e.redis key :=
  fun url hurl => ⟨hreached url hurl, hkey (by simp [hurl])⟩

/-- What is set for a positive number of seconds is found at once, even if this is too long for the
clock of a cache in memory. -/
theorem exists_stored_of_pos (backend : Backend) {key value : Text}
    (hreached : ∀ url, backend = .redis url → e.redis.IsReached) (hnow : e.clock.toRat?.isSome)
    (hpos : 0 < ttl) (hsent : backend ≠ .memory →
      key.isEncodable ∧ value.isEncodable ∧ ttl ≤ Redis.longestTtl) (store : Store) :
    ∃ deadline, CacheEntry.isLive ⟨value, deadline⟩ e.clock ∧
      backend.stored e store key value (.integer ttl) =
        (if backend = .memory ∧ !Binary64.isInRange ttl then .error (.duration .tooLong)
          else .ok (), store.insert key ⟨value, deadline⟩) := by
  cases backend with
  | redis url =>
    obtain ⟨hkey, hvalue, hlong⟩ := hsent (by simp)
    refine ⟨none, rfl, ?_⟩
    rw [Backend.stored, (hreached url rfl).set_eq _ _ _ _ _ hkey hvalue hpos hlong,
      if_neg (by simp)]
    rfl
  | memory =>
    by_cases hrange : Binary64.isInRange ttl
    · obtain ⟨deadline, hdeadline⟩ := Store.exists_deadline hrange e.clock
      refine ⟨deadline, isLive_of_deadline? hnow hpos.le hdeadline value, ?_⟩
      rw [Backend.stored_memory hdeadline, if_neg (by simp [hrange])]
    · refine ⟨none, rfl, ?_⟩
      rw [Backend.stored_of_not_isInRange hrange, if_pos ⟨rfl, by simpa using hrange⟩]

theorem Holds.insert {key : Text} {entry : CacheEntry} (h : Holds space now store m)
    (hlive : entry.isLive now) :
    Holds space now (store.insert (space ++ key) entry)
      (Function.update m key (some entry.value)) := by
  intro other
  by_cases hkey : other = key
  · subst hkey
    rw [Store.find?_insert_self, if_pos hlive, Function.update_self]
  · rw [Store.find?_insert_ne _ _ _ fun hsame => hkey (List.append_cancel_left hsame),
      Function.update_of_ne hkey, h]

theorem Holds.erase {key : Text} (h : Holds space now store m) :
    Holds space now (store.erase (space ++ key)) (Function.update m key none) := by
  intro other
  by_cases hkey : other = key
  · subst hkey
    rw [Store.find?_erase_self, Function.update_self]
  · rw [Store.find?_erase_ne _ _ fun hsame => hkey (List.append_cancel_left hsame),
      Function.update_of_ne hkey, h]

section

variable (hreached : ∀ url, backend = .redis url → e.redis.IsReached)

include hreached

theorem Holds.applied {operation : Operation} (h : Holds space e.clock store m)
    (hnow : e.clock.toRat?.isSome) (hlasting : operation.IsLasting ⟨backend, space⟩) :
    Holds space e.clock (operation.applied ⟨backend, space⟩ e store) (m.after operation) := by
  cases operation with
  | get key => exact h
  | set key value ttl logged =>
    obtain ⟨n, rfl, hpos, hsent⟩ := hlasting
    obtain ⟨deadline, hlive, hstored⟩ := exists_stored_of_pos backend hreached hnow hpos hsent store
    rw [Operation.applied, hstored]
    exact h.insert hlive
  | delete key =>
    rw [Operation.applied, Backend.removed_eq (answers_of_isEncodable hreached hlasting)]
    exact h.erase

theorem Holds.reply {operation : Operation} (h : Holds space e.clock store m)
    (hnow : e.clock.toRat?.isSome) (hlasting : operation.IsLasting ⟨backend, space⟩) :
    operation.reply ⟨backend, space⟩ e store =
      operation.ended backend (m.reply operation) := by
  cases operation with
  | get key =>
    rw [Operation.reply, Backend.found_eq (answers_of_isEncodable hreached hlasting), h key]
    simp [Operation.ended, Operation.isTooLong, Contents.reply, Except.map]
  | delete key =>
    rw [Operation.reply, Backend.removed_eq (answers_of_isEncodable hreached hlasting), h key]
    simp [Operation.ended, Operation.isTooLong, Contents.reply, Except.map]
  | set key value ttl logged =>
    obtain ⟨n, rfl, hpos, hsent⟩ := hlasting
    obtain ⟨deadline, -, hstored⟩ := exists_stored_of_pos backend hreached hnow hpos hsent store
    rw [Operation.reply, hstored, Operation.ended, Operation.isTooLong, Contents.reply]
    split <;> rfl

end

/-! ### Runs -/

/-- The run lemma: while nothing lapses, the operations of a run are answered by what is held. -/
theorem Holds.answers {steps : List (Step Operation)} (h : Holds space e.clock store m)
    (hreached : ∀ url, backend = .redis url → e.redis.IsReached)
    (hlasting : ∀ operation, .call operation ∈ steps →
      operation.IsLasting ⟨backend, space⟩)
    (hkept : NothingLapses (perform ⟨backend, space⟩) e store steps) :
    (calls (perform ⟨backend, space⟩) e store steps).map Call.answer =
      (m.replies steps).map fun (operation, reply) => operation.ended backend reply := by
  induction steps generalizing e store m with
  | nil => rfl
  | cons step steps ih =>
    have hlater : ∀ operation, .call operation ∈ steps → operation.IsLasting ⟨backend, space⟩ :=
      fun operation hmem => hlasting operation (List.mem_cons_of_mem _ hmem)
    cases step with
    | advance seconds =>
      rw [NothingLapses] at hkept
      rw [calls, Contents.replies]
      cases hmoved : e.advance seconds with
      | ok later =>
        simp only [hmoved] at hkept
        obtain ⟨duration, rfl⟩ := Environment.advance_eq_ok hmoved
        refine ih (fun key => ?_) hreached hlater hkept.2
        rw [Store.find?_elapse_of_sweep hkept.1, h]
      | error fault =>
        simp only [hmoved] at hkept
        exact ih h hreached hlater hkept
    | publish zone => exact ih (e := { e with zone }) h hreached hlater hkept
    | lapse key =>
      obtain ⟨herased, hkept⟩ := hkept
      rw [herased] at hkept
      rw [calls, herased]
      exact ih h hreached hlater hkept
    | call operation =>
      obtain ⟨hnow, hkept⟩ := hkept
      have hop := hlasting operation List.mem_cons_self
      obtain ⟨hreply, hstore⟩ := exec_perform ⟨backend, space⟩ operation e ⟨store, []⟩
      rw [hstore] at hkept
      rw [calls_call, hreply, hstore, Contents.replies, List.map_cons, List.map_cons,
        h.reply hreached hnow hop, ih (h.applied hreached hnow hop) hreached hlater hkept]

end Cache

end SenderPolicy
