import Mathlib.Data.List.Infix
import SenderPolicy.Proofs.Cache.Operations
import SenderPolicy.Proofs.Cache.Redis
import SenderPolicy.Proofs.Run

/-! Caches that share one store, each under a text of its own before every key.  What the store
holds under one such text follows from the operations of that cache alone, unless the text of
another one begins with it or is the beginning of it. -/

namespace SenderPolicy

namespace Store

/-- The part of a store whose keys begin with `space`. -/
def under (store : Store) (space : Text) : Store := store.filter (space.isPrefixOf ·.1)

variable {space key : Text}

theorem under_sweep (store : Store) (now : Binary64) (space : Text) :
    (store.sweep now).under space = (store.under space).sweep now := by
  simp only [sweep, under, List.filter_filter, Bool.and_comm]

theorem under_elapse (store : Store) (before now : Binary64) (space : Text) :
    (store.elapse before now).under space = (store.under space).elapse before now := by
  rw [elapse, elapse, under_sweep, under_sweep]

theorem under_erase (store : Store) (key space : Text) :
    (store.erase key).under space = (store.under space).erase key := by
  simp only [erase, under, List.filter_filter, Bool.and_comm]

theorem erase_under_of_not_prefix (h : ¬ space <+: key) (store : Store) :
    (store.under space).erase key = store.under space := by
  refine List.filter_eq_self.2 fun item hitem => ?_
  have hspace : space <+: item.1 := by simpa using (List.mem_filter.1 hitem).2
  simpa using fun hkey : item.1 = key => h (hkey ▸ hspace)

theorem under_insert (store : Store) (key : Text) (entry : CacheEntry) (space : Text) :
    (store.insert key entry).under space =
      if space <+: key then (store.under space).insert key entry else store.under space := by
  by_cases h : space <+: key
  · rw [if_pos h, insert, insert, ← under_erase, under, List.filter_cons_of_pos (by simpa using h)]
    rfl
  · rw [if_neg h, insert, under, List.filter_cons_of_neg (by simpa using h), ← under, under_erase,
      erase_under_of_not_prefix h]

/-- What is found under a key is found in the part to which the key belongs. -/
theorem find?_under (h : space <+: key) (store : Store) (now : Binary64) :
    (store.under space).find? now key = store.find? now key := by
  rw [find?, find?, ← under_sweep]
  congr 1
  induction store.sweep now with
  | nil => rfl
  | cons item items ih =>
    obtain ⟨k, entry⟩ := item
    by_cases hk : key = k
    · subst hk
      rw [under, List.filter_cons_of_pos (by simpa using h)]
      simp
    · have hother : (key == k) = false := beq_eq_false_iff_ne.2 hk
      rw [List.lookup_cons, hother, ← ih, under, under, List.filter_cons]
      split
      · rw [List.lookup_cons, hother]
      · rfl

end Store

namespace Cache

open SenderPolicy.Action SenderPolicy.Run

variable {backend : Backend} {a b : Text} {e : Environment} {s t : Store}

/-- An operation on the cache of a space. -/
structure Request where
  space : Text
  operation : Operation

def performAt (backend : Backend) (request : Request) : Action Reply :=
  perform ⟨backend, request.space⟩ request.operation

/-- What the operations on the cache of a space answer. -/
def repliesTo (space : Text) (calls : List (Call Request Reply)) : List (Except Failure Reply) :=
  (calls.filter (·.request.space == space)).map Call.answer

/-- The steps of a run that are no operations on the cache of a space. -/
def without (space : Text) (steps : List (Step Request)) : List (Step Request) :=
  steps.filter fun
    | .call request => request.space != space
    | _ => true

/-! ### Operations -/

/-- Two texts begin a common text exactly if one begins the other. -/
theorem exists_append_eq_iff : (∃ k l, a ++ k = b ++ l) ↔ a <+: b ∨ b <+: a := by
  constructor
  · rintro ⟨k, l, h⟩
    exact List.prefix_or_prefix_of_prefix (List.prefix_append a k) (h ▸ List.prefix_append b l)
  · rintro (⟨rest, rfl⟩ | ⟨rest, rfl⟩)
    · exact ⟨rest, [], by rw [List.append_nil]⟩
    · exact ⟨[], rest, by rw [List.append_nil]⟩

/-- An operation on one cache does nothing to what is under the text of the other. -/
theorem under_applied (h : ¬ ∃ k l, a ++ k = b ++ l) (hkeys : backend.StoresByKey e.redis)
    (operation : Operation) : (operation.applied ⟨backend, b⟩ e s).under a = s.under a := by
  have hkey (key : Text) : ¬ a <+: b ++ key := fun ⟨k, hk⟩ => h ⟨k, key, hk⟩
  cases operation with
  | get key => rfl
  | set key value ttl logged =>
    rw [Operation.applied]
    rcases hkeys.stored_cases (b ++ key) value ttl with ⟨_, hstored⟩ | ⟨_, hstored⟩
    · rw [hstored]
    · rw [hstored, Store.under_insert, if_neg (hkey key)]
  | delete key =>
    rw [Operation.applied]
    rcases hkeys.removed_cases (b ++ key) with ⟨_, hremoved⟩ | hremoved
    · rw [hremoved]
    · rw [hremoved, Store.under_erase, Store.erase_under_of_not_prefix (hkey key)]

/-- What an operation does to a part of the store follows from that part. -/
theorem under_applied_congr (h : s.under a = t.under a) (cache : Cache)
    (hkeys : cache.backend.StoresByKey e.redis) (operation : Operation) :
    (operation.applied cache e s).under a = (operation.applied cache e t).under a := by
  cases operation with
  | get key => exact h
  | set key value ttl logged =>
    rw [Operation.applied, Operation.applied]
    rcases hkeys.stored_cases (cache.space ++ key) value ttl with ⟨_, hstored⟩ | ⟨_, hstored⟩
    · rw [hstored, hstored, h]
    · rw [hstored, hstored, Store.under_insert, Store.under_insert, h]
  | delete key =>
    rw [Operation.applied, Operation.applied]
    rcases hkeys.removed_cases (cache.space ++ key) with ⟨_, hremoved⟩ | hremoved
    · rw [hremoved, hremoved, h]
    · rw [hremoved, hremoved, Store.under_erase, Store.under_erase, h]

theorem reply_congr (h : s.under a = t.under a) (hkeys : backend.StoresByKey e.redis)
    (operation : Operation) :
    operation.reply ⟨backend, a⟩ e s = operation.reply ⟨backend, a⟩ e t := by
  have hfind (key : Text) : s.find? e.clock (a ++ key) = t.find? e.clock (a ++ key) := by
    rw [← Store.find?_under (List.prefix_append a key), h,
      Store.find?_under (List.prefix_append a key)]
  cases operation with
  | get key =>
    rw [Operation.reply, Operation.reply]
    rcases hkeys.found_cases (a ++ key) with ⟨_, hfound⟩ | hfound
    · rw [hfound, hfound]
    · rw [hfound, hfound, hfind]
  | set key value ttl logged =>
    rw [Operation.reply, Operation.reply]
    rcases hkeys.stored_cases (a ++ key) value ttl with ⟨_, hstored⟩ | ⟨_, hstored⟩ <;>
      rw [hstored, hstored]
  | delete key =>
    rw [Operation.reply, Operation.reply]
    rcases hkeys.removed_cases (a ++ key) with ⟨_, hremoved⟩ | hremoved
    · rw [hremoved, hremoved]
    · rw [hremoved, hremoved, hfind]

/-! ### Runs -/

theorem repliesTo_call (space : Text) (e : Environment) (store : Store) (request : Request)
    (steps : List (Step Request)) :
    repliesTo space (calls (performAt backend) e store (.call request :: steps)) =
      (if request.space = space then
        [request.operation.reply ⟨backend, request.space⟩ e store] else []) ++
      repliesTo space (calls (performAt backend) e
        (request.operation.applied ⟨backend, request.space⟩ e store) steps) := by
  obtain ⟨hreply, hstore⟩ := exec_perform ⟨backend, request.space⟩ request.operation e ⟨store, []⟩
  rw [calls_call, performAt, hreply, hstore, repliesTo]
  by_cases h : request.space = space
  · rw [List.filter_cons_of_pos (by simpa using h), if_pos h]
    rfl
  · rw [List.filter_cons_of_neg (by simpa using h), if_neg h]
    rfl

/-- The run lemma: operations on a cache of which no key belongs to the other one can be left out
for the latter. -/
theorem repliesTo_without (hapart : ¬ ∃ k l, a ++ k = b ++ l)
    (hkeys : backend.StoresByKey e.redis) (steps : List (Step Request))
    (h : s.under a = t.under a) :
    repliesTo a (calls (performAt backend) e s steps) =
      repliesTo a (calls (performAt backend) e t (without b steps)) := by
  induction steps generalizing e s t with
  | nil => rfl
  | cons step steps ih =>
    cases step with
    | advance seconds =>
      show repliesTo a (calls (performAt backend) e s (.advance seconds :: steps)) =
        repliesTo a (calls (performAt backend) e t (.advance seconds :: without b steps))
      rw [calls, calls]
      split
      · next later hmoved =>
        obtain ⟨duration, rfl⟩ := Environment.advance_eq_ok hmoved
        exact ih hkeys (by rw [Store.under_elapse, Store.under_elapse, h])
      · exact ih hkeys h
    | publish zone => exact ih (e := { e with zone }) hkeys h
    | lapse key => exact ih hkeys (by rw [Store.under_erase, Store.under_erase, h])
    | call request =>
      rw [repliesTo_call]
      by_cases hb : request.space = b
      · have hleft : without b (.call request :: steps) = without b steps :=
          List.filter_cons_of_neg (by simpa using hb)
        have ha : ¬ request.space = a := fun ha => hapart ⟨[], [], by rw [← ha, ← hb]⟩
        rw [hleft, if_neg ha, List.nil_append]
        refine ih hkeys ?_
        rw [hb, under_applied hapart hkeys, h]
      · have hkept : without b (.call request :: steps) = .call request :: without b steps :=
          List.filter_cons_of_pos (by simpa using hb)
        rw [hkept, repliesTo_call, ih hkeys (under_applied_congr h _ hkeys _)]
        split
        · next ha => rw [ha, reply_congr h hkeys]
        · rfl

/-- Each of two caches gets the answers that it would get without the operations on the other one,
whatever else happens. -/
def Isolated (backend : Backend) (a b : Text) (e : Environment) (store : Store) : Prop :=
  ∀ steps : List (Step Request),
    repliesTo a (calls (performAt backend) e store steps) =
      repliesTo a (calls (performAt backend) e store (without b steps)) ∧
    repliesTo b (calls (performAt backend) e store steps) =
      repliesTo b (calls (performAt backend) e store (without a steps))

/-- Where two caches have a stored key in common, one finds what the other sets. -/
theorem not_isolated {k l : Text} (hmeet : a ++ k = b ++ l)
    (hanswers : backend.Answers e.redis (a ++ k)) (store : Store) :
    ¬ Isolated backend a b e store := by
  obtain ⟨ttl, hstored⟩ := Backend.exists_stored_eq hanswers
  intro hisolated
  have hsteps := (hisolated [.call ⟨a, .delete k⟩, .call ⟨b, .set l [] ttl false⟩,
    .call ⟨a, .get k⟩]).1
  have hnil (store : Store) : repliesTo a (calls (performAt backend) e store []) = [] := rfl
  by_cases hab : b = a
  · subst hab
    have hnone : without b [.call ⟨b, .delete k⟩, .call ⟨b, .set l [] ttl false⟩,
        .call ⟨b, .get k⟩] = [] := by simp [without]
    rw [hnone, repliesTo_call, if_pos rfl] at hsteps
    exact List.cons_ne_nil _ _ hsteps
  · have hother : without b [.call ⟨a, .delete k⟩, .call ⟨b, .set l [] ttl false⟩,
        .call ⟨a, .get k⟩] = [.call ⟨a, .delete k⟩, .call ⟨a, .get k⟩] := by
      simp [without, Ne.symm hab]
    rw [hother] at hsteps
    simp only [repliesTo_call, hnil, if_true, hab, if_false, Operation.reply, Operation.applied,
      ← hmeet, Backend.found_eq hanswers, Backend.removed_eq hanswers, hstored _ [] rfl] at hsteps
    simp [CacheEntry.isLive, Except.map] at hsteps

/-- Of two texts before keys one begins with the other, and there is a key of both caches. -/
theorem exists_meeting (h : a <+: b ∨ b <+: a) (ha : backend.Answers e.redis a)
    (hb : backend.Answers e.redis b) :
    ∃ k l, a ++ k = b ++ l ∧ backend.Answers e.redis (a ++ k) := by
  rcases h with ⟨k, rfl⟩ | ⟨l, rfl⟩
  · exact ⟨k, [], (List.append_nil _).symm, hb⟩
  · exact ⟨[], l, List.append_nil _, by rwa [List.append_nil]⟩

/-- Two caches on one store are isolated if neither of the texts before their keys begins with the
other, and only then where the backend answers under both. -/
theorem isolated_iff_not_prefix (backend : Backend) (a b : Text) (e : Environment)
    (store : Store) (hkeys : backend.StoresByKey e.redis) :
    (¬ a <+: b ∧ ¬ b <+: a → Isolated backend a b e store) ∧
    (backend.Answers e.redis a → backend.Answers e.redis b →
      (Isolated backend a b e store ↔ ¬ a <+: b ∧ ¬ b <+: a)) := by
  have hapart (h : ¬ a <+: b ∧ ¬ b <+: a) : Isolated backend a b e store := fun steps => by
    have hnone : ¬ ∃ k l, a ++ k = b ++ l := by
      rw [exists_append_eq_iff, not_or]
      exact h
    have hnone' : ¬ ∃ k l, b ++ k = a ++ l := fun ⟨k, l, hmeet⟩ => hnone ⟨l, k, hmeet.symm⟩
    exact ⟨repliesTo_without hnone hkeys steps rfl, repliesTo_without hnone' hkeys steps rfl⟩
  refine ⟨hapart, fun ha hb => ⟨fun hisolated => ?_, hapart⟩⟩
  rw [← not_or]
  intro hprefix
  obtain ⟨k, l, hmeet, hanswers⟩ := exists_meeting hprefix ha hb
  exact not_isolated hmeet hanswers store hisolated

/-- In one database, a text before the keys that another one begins with is not enough. -/
theorem isolated_iff_not_prefix_services :
    let e : Environment := ⟨.empty, .ok {}, Clock.zero, .documented⟩
    let backend : Backend := .redis "redis://localhost:6379/0"
    backend.StoresByKey e.redis ∧ Isolated backend "mail:" "spf:" e [] ∧
      ¬ Isolated backend "spf:" "spf:test:" e [] := by
  intro e backend
  have hanswers {key : Text} (h : key.isEncodable) : backend.Answers e.redis key :=
    fun _ _ => ⟨Redis.isReached_documented, h⟩
  have hkeys : backend.StoresByKey e.redis := fun _ _ => Redis.storesByKey_documented
  obtain ⟨hapart, -⟩ := isolated_iff_not_prefix backend "mail:" "spf:" e [] hkeys
  obtain ⟨-, hiff⟩ := isolated_iff_not_prefix backend "spf:" "spf:test:" e [] hkeys
  have hmeet := hiff (hanswers (by decide)) (hanswers (by decide))
  exact ⟨hkeys, hapart (by decide), fun h => absurd (hmeet.1 h) (by decide)⟩

end Cache

end SenderPolicy
