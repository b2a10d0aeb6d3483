import SenderPolicy.Proofs.Cache.Interchange
import SenderPolicy.Proofs.Expansion.Effects
import SenderPolicy.Proofs.Expansion.Rejection

/-! Expansion by caches on different backends.  Where two stores hold the same, actions that differ
in the backend of their cache only have the same answer and the same events outside of it, and they
leave stores that hold the same: `Interchangeable` says so of two actions, and there is one lemma
for each way to put actions together. -/

namespace SenderPolicy

/-- Everything but a command to a cache is outside of it. -/
def Event.isOutside : Event → Bool
  | .cache _ _ => false
  | .query _ | .log _ | .report _ => true

/-- States in which the same is found under a space, and the same has happened outside. -/
structure Alike (space : Text) (now : Binary64) (s t : State) : Prop where
  found : ∀ key, s.store.find? now (space ++ key) = t.store.find? now (space ++ key)
  outside : s.trace.filter Event.isOutside = t.trace.filter Event.isOutside

theorem Alike.append {space : Text} {now : Binary64} {s t : State} {events others : List Event}
    (h : Alike space now s t)
    (hevents : events.filter Event.isOutside = others.filter Event.isOutside) :
    Alike space now { s with trace := s.trace ++ events }
      { t with trace := t.trace ++ others } := by
  refine ⟨h.found, ?_⟩
  rw [List.filter_append, List.filter_append, h.outside, hevents]

/-! ### Actions -/

namespace Action

variable {α β : Type} {space : Text} {e : Environment}

/-- Two actions that answer the same on states that are alike, and leave such states. -/
def Interchangeable (space : Text) (e : Environment) (first second : Action α) : Prop :=
  ∀ s t, Alike space e.clock s t →
    (exec first e s).1 = (exec second e t).1 ∧
      Alike space e.clock (exec first e s).2 (exec second e t).2

theorem UsesNoCache.interchangeable {action : Action α} (h : UsesNoCache action) :
    Interchangeable space e action action := by
  intro s t hst
  rw [h.exec, h.exec]
  exact ⟨rfl, hst.append rfl⟩

/-- Of an action that does not use the cache, what follows is looked at for its answer only. -/
theorem UsesNoCache.interchangeable_bind {action : Action α} {next later : α → Action β}
    (h : UsesNoCache action)
    (hnext : ∀ a, action.answer e = .ok a → Interchangeable space e (next a) (later a)) :
    Interchangeable space e (action >>= next) (action >>= later) := by
  intro s t hst
  rw [exec_bind, exec_bind, h.exec, h.exec]
  cases hanswer : action.answer e with
  | error failure => exact ⟨rfl, hst.append rfl⟩
  | ok a => exact hnext a hanswer _ _ (hst.append rfl)

theorem Interchangeable.exists_exec {first second : Action α} {s t : State}
    (h : Interchangeable space e first second) (hst : Alike space e.clock s t) :
    ∃ result s' t', exec first e s = (result, s') ∧ exec second e t = (result, t') ∧
      Alike space e.clock s' t' := by
  obtain ⟨hanswer, hafter⟩ := h s t hst
  exact ⟨(exec first e s).1, (exec first e s).2, (exec second e t).2, rfl,
    Prod.ext hanswer.symm rfl, hafter⟩

theorem Interchangeable.bind {first second : Action α} {next later : α → Action β}
    (h : Interchangeable space e first second)
    (hnext : ∀ a, Interchangeable space e (next a) (later a)) :
    Interchangeable space e (first >>= next) (second >>= later) := by
  intro s t hst
  obtain ⟨result, s', t', hfirst, hsecond, hafter⟩ := h.exists_exec hst
  rw [exec_bind, exec_bind, hfirst, hsecond]
  cases result with
  | error failure => exact ⟨rfl, hafter⟩
  | ok a => exact hnext a s' t' hafter

theorem Interchangeable.tryCatch {first second : Action α} {handler other : Failure → Action α}
    (h : Interchangeable space e first second)
    (hhandler : ∀ failure, Interchangeable space e (handler failure) (other failure)) :
    Interchangeable space e (tryCatch first handler) (tryCatch second other) := by
  intro s t hst
  obtain ⟨result, s', t', hfirst, hsecond, hafter⟩ := h.exists_exec hst
  rw [exec_tryCatch, exec_tryCatch, hfirst, hsecond]
  cases result with
  | error failure => exact hhandler failure s' t' hafter
  | ok a => exact ⟨rfl, hafter⟩

theorem interchangeable_pure (a : α) :
    Interchangeable space e (pure a : Action α) (pure a) :=
  (usesNoCache_pure a).interchangeable

theorem interchangeable_throw (failure : Failure) :
    Interchangeable space e (throw failure : Action α) (throw failure) :=
  (usesNoCache_throw failure).interchangeable

theorem interchangeable_log (component : Component) (level : LogLevel) (message : Text) :
    Interchangeable space e (log component level message) (log component level message) :=
  (usesNoCache_log component level message).interchangeable

end Action

open SenderPolicy.Action

variable {space : Text} {e : Environment} {ttl : Int}

/-! ### Caches -/

/-- What is stored so that it is found at once is found alike. -/
theorem Alike.insert {s t : State} {value : Text} {deadline other : Option Binary64}
    (h : Alike space e.clock s t) (hlive : CacheEntry.isLive ⟨value, deadline⟩ e.clock)
    (hother : CacheEntry.isLive ⟨value, other⟩ e.clock) (key : Text) :
    Alike space e.clock { s with store := s.store.insert (space ++ key) ⟨value, deadline⟩ }
      { t with store := t.store.insert (space ++ key) ⟨value, other⟩ } := by
  have hfirst : Cache.Holds space e.clock s.store fun key => t.store.find? e.clock (space ++ key) :=
    h.found
  have hsecond : Cache.Holds space e.clock t.store fun key =>
    t.store.find? e.clock (space ++ key) := fun _ => rfl
  refine ⟨fun found => ?_, h.outside⟩
  exact (hfirst.insert hlive found).trans (hsecond.insert hother found).symm

namespace Cache

theorem interchangeable_get (hreached : e.redis.IsReached) (first second : Backend) {key : Text}
    (hkey : (space ++ key).isEncodable) :
    Interchangeable space e (Cache.get ⟨first, space⟩ key) (Cache.get ⟨second, space⟩ key) := by
  intro s t hst
  have hanswers (backend : Backend) : backend.Answers e.redis (space ++ key) :=
    fun _ _ => ⟨hreached, hkey⟩
  rw [Cache.get, Cache.get, Backend.exec_get, Backend.exec_get, Backend.found_eq (hanswers first),
    Backend.found_eq (hanswers second), hst.found key]
  exact ⟨rfl, hst.append rfl⟩

/-- What a database takes is set alike. -/
theorem interchangeable_set (hreached : e.redis.IsReached) (hclock : e.clock.toRat?.isSome)
    {key value : Text} (htakes : Redis.Takes (space ++ key) value ttl) (first second : Backend)
    (logged : Bool) :
    Interchangeable space e (Cache.set ⟨first, space⟩ key value (.integer ttl) logged)
      (Cache.set ⟨second, space⟩ key value (.integer ttl) logged) := by
  have hbackend : Interchangeable space e (first.set (space ++ key) value (.integer ttl))
      (second.set (space ++ key) value (.integer ttl)) := by
    intro s t hst
    obtain ⟨hkey, hvalue, hpos, hlong⟩ := htakes
    have hrange := isInRange_of_le_longestTtl hpos hlong
    obtain ⟨deadline, hlive, hfirst⟩ := exists_stored_of_pos first
      (fun _ _ => hreached) hclock hpos (fun _ => ⟨hkey, hvalue, hlong⟩) s.store
    obtain ⟨other, hlives, hsecond⟩ := exists_stored_of_pos second
      (fun _ _ => hreached) hclock hpos (fun _ => ⟨hkey, hvalue, hlong⟩) t.store
    rw [if_neg (by simp [hrange])] at hfirst hsecond
    rw [Backend.exec_set, Backend.exec_set, hfirst, hsecond]
    exact ⟨rfl, (hst.insert hlive hlives key).append rfl⟩
  refine hbackend.bind fun _ => ?_
  split
  · exact interchangeable_log _ _ _
  · exact interchangeable_pure _

end Cache

/-! ### Expansion -/

theorem ValidatedName.interchangeable_preferred (hreached : e.redis.IsReached)
    (hclock : e.clock.toRat?.isSome) (hpos : 0 < ttl) (hlong : ttl ≤ Redis.longestTtl)
    (first second : Backend) {tuning : Tuning} {client : Address} {domain : Text}
    (httl : tuning.pointerCacheTtl = .integer ttl)
    (hkey : (space ++ cacheKey client domain).isEncodable) :
    Interchangeable space e (preferred tuning ⟨first, space⟩ client domain)
      (preferred tuning ⟨second, space⟩ client domain) := by
  refine (Cache.interchangeable_get hreached first second hkey).bind fun found => ?_
  split
  · exact interchangeable_pure _
  · rw [httl]
    refine (usesNoCache_names tuning client).interchangeable_bind fun names hnames => ?_
    have hchosen := isEncodable_choose (isEncodable_of_names hnames) domain
    refine (Cache.interchangeable_set hreached hclock ⟨hkey, hchosen, hpos, hlong⟩ _ _ _).bind
      fun _ => ?_
    exact interchangeable_pure _

/-- What guards an action does not use the cache. -/
theorem Reporting.interchangeable_guarded {α : Type} {action other : Action α}
    (h : Interchangeable space e action other) :
    Interchangeable space e (guarded action) (guarded other) := by
  refine h.tryCatch fun failure => UsesNoCache.interchangeable ?_
  dsimp only
  split
  · refine usesNoCache_processSettings.bind fun settings => ?_
    refine (hasEffects_capture settings _ _ _).usesNoCache.bind fun _ => ?_
    exact usesNoCache_throw failure
  · exact usesNoCache_throw failure

namespace Expander

section Kept

variable {tuning : Tuning} {session : Session} (hreached : e.redis.IsReached)
  (hclock : e.clock.toRat?.isSome) (hpos : 0 < ttl) (hlong : ttl ≤ Redis.longestTtl)
  (httl : tuning.pointerCacheTtl = .integer ttl)
  (hkey : (space ++ ValidatedName.cacheKey session.client session.currentDomain).isEncodable)
  (first second : Backend)

include hreached hclock hpos hlong httl hkey

/-- No letter but that of the validated name uses the cache. -/
theorem interchangeable_resolve (letter : Letter) :
    Interchangeable space e (resolve ⟨tuning, ⟨first, space⟩⟩ session letter)
      (resolve ⟨tuning, ⟨second, space⟩⟩ session letter) := by
  by_cases hletter : letter = .validatedName
  · subst hletter
    refine (ValidatedName.interchangeable_preferred hreached hclock hpos hlong first second httl
      hkey).tryCatch fun failure => ?_
    split
    · exact interchangeable_throw _
    · exact interchangeable_throw _
  · have hsame : resolve ⟨tuning, ⟨first, space⟩⟩ session letter =
        resolve ⟨tuning, ⟨second, space⟩⟩ session letter := by
      cases letter with
      | validatedName => exact absurd rfl hletter
      | _ => rfl
    intro s t hst
    rw [hsame, exec_resolve_of_ne hletter, exec_resolve_of_ne hletter]
    exact ⟨rfl, hst⟩

theorem interchangeable_expandPiece (piece : Piece) :
    Interchangeable space e (expandPiece ⟨tuning, ⟨first, space⟩⟩ session piece)
      (expandPiece ⟨tuning, ⟨second, space⟩⟩ session piece) := by
  cases piece with
  | literal text => exact interchangeable_pure text
  | token token =>
    refine (interchangeable_resolve hreached hclock hpos hlong httl hkey first second
      token.letter).bind fun value => ?_
    split
    · exact interchangeable_pure _
    · exact interchangeable_throw _

theorem interchangeable_expandPieces (pieces : List Piece) :
    Interchangeable space e (expandPieces ⟨tuning, ⟨first, space⟩⟩ session pieces)
      (expandPieces ⟨tuning, ⟨second, space⟩⟩ session pieces) := by
  induction pieces with
  | nil => exact interchangeable_pure []
  | cons piece pieces ih =>
    rw [expandPieces_cons, expandPieces_cons]
    refine (interchangeable_expandPiece hreached hclock hpos hlong httl hkey first second
      piece).bind fun text => ?_
    exact ih.bind fun later => interchangeable_pure _

theorem interchangeable_expand (value : Text) (letters : List Character) :
    Interchangeable space e (expand ⟨tuning, ⟨first, space⟩⟩ session value letters)
      (expand ⟨tuning, ⟨second, space⟩⟩ session value letters) := by
  cases hscan : MacroString.scan letters value with
  | ok pieces =>
    rw [expand_of_scan hscan, expand_of_scan hscan]
    exact interchangeable_expandPieces hreached hclock hpos hlong httl hkey first second pieces
  | error fault =>
    intro s t hst
    rw [exec_expand_of_fault hscan, exec_expand_of_fault hscan]
    exact ⟨rfl, hst.append rfl⟩

theorem interchangeable_expandDomainSpec (value : Text) :
    Interchangeable space e (expandDomainSpec ⟨tuning, ⟨first, space⟩⟩ session value)
      (expandDomainSpec ⟨tuning, ⟨second, space⟩⟩ session value) := by
  refine (interchangeable_expand hreached hclock hpos hlong httl hkey first second value _).bind
    fun domain => UsesNoCache.interchangeable ?_
  cases hlimit : tuning.domainLength? with
  | error fault => exact usesNoCache_throw _
  | ok limit? =>
    have hshortened : UsesNoCache (do
        if shorten limit? domain.dropFinalDots ≠ domain.dropFinalDots then
          log .expander .debug ("Shortened expanded domain " ++ domain.dropFinalDots ++ " to " ++
            shorten limit? domain.dropFinalDots)
        return shorten limit? domain.dropFinalDots) := by
      split
      · exact (usesNoCache_log _ _ _).bind fun _ => usesNoCache_pure _
      · exact usesNoCache_pure _
    dsimp only
    split
    · split
      · exact (usesNoCache_throw _).bind fun _ => hshortened
      · exact (usesNoCache_throw _).bind fun _ => hshortened
    · exact hshortened

end Kept

end Expander

/-- A call that expands a string for a session in some manner. -/
structure Expansion where
  session : Session
  manner : Manner
  value : Text

/-- The key under which the validated name of the session is cached. -/
def Expansion.key (space : Text) (expansion : Expansion) : Text :=
  space ++ ValidatedName.cacheKey expansion.session.client expansion.session.currentDomain

def Expansion.perform (x : Expander) (expansion : Expansion) : Action Text :=
  expansion.manner.expand x expansion.session expansion.value

theorem Expansion.interchangeable_perform {tuning : Tuning} (hreached : e.redis.IsReached)
    (hclock : e.clock.toRat?.isSome) (hpos : 0 < ttl) (hlong : ttl ≤ Redis.longestTtl)
    (httl : tuning.pointerCacheTtl = .integer ttl) (first second : Backend)
    {expansion : Expansion} (hkey : (expansion.key space).isEncodable) :
    Interchangeable space e (expansion.perform ⟨tuning, ⟨first, space⟩⟩)
      (expansion.perform ⟨tuning, ⟨second, space⟩⟩) := by
  obtain ⟨session, manner, value⟩ := expansion
  have hexpand := Expander.interchangeable_expand hreached hclock hpos hlong httl hkey first second
    value
  have hdomainSpec := Expander.interchangeable_expandDomainSpec hreached hclock hpos hlong httl hkey
    first second value
  cases manner with
  | free letters => exact hexpand letters
  | domainSpec => exact hdomainSpec
  | explanation => exact hexpand _
  | term qualifier mechanism =>
    refine Reporting.interchangeable_guarded ?_
    split
    · exact hexpand _
    · exact hdomainSpec

/-! ### Runs -/

namespace Run

/-- What a call shows: how it ended, and what happened outside of the cache. -/
def Call.shown {α β : Type} (call : Call α β) : Except Failure β × List Event :=
  (call.answer, call.events.filter Event.isOutside)

/-- The run lemma: while nothing lapses, calls of interchangeable actions show the same. -/
theorem shown_calls {α β : Type} {first second : α → Action β} {steps : List (Step α)}
    {s t : Store}
    (hcall : ∀ (later : Environment) (request : α), .call request ∈ steps →
      later.redis = e.redis → later.clock.toRat?.isSome →
      Interchangeable space later (first request) (second request))
    (hfound : ∀ key, s.find? e.clock (space ++ key) = t.find? e.clock (space ++ key))
    (hfirst : NothingLapses first e s steps) (hsecond : NothingLapses second e t steps) :
    (calls first e s steps).map Call.shown = (calls second e t steps).map Call.shown := by
  induction steps generalizing e s t with
  | nil => rfl
  | cons step steps ih =>
    have hlater (later : Environment) (request : α) (hmem : .call request ∈ steps) :=
      hcall later request (List.mem_cons_of_mem _ hmem)
    cases step with
    | advance seconds =>
      rw [NothingLapses] at hfirst hsecond
      rw [calls, calls]
      cases hmoved : e.advance seconds with
      | ok later =>
        simp only [hmoved] at hfirst hsecond
        obtain ⟨duration, rfl⟩ := Environment.advance_eq_ok hmoved
        refine ih hlater (fun key => ?_) hfirst.2 hsecond.2
        rw [Store.find?_elapse_of_sweep hfirst.1, Store.find?_elapse_of_sweep hsecond.1, hfound]
      | error fault =>
        simp only [hmoved] at hfirst hsecond
        exact ih hlater hfound hfirst hsecond
    | publish zone => exact ih (e := { e with zone }) hlater hfound hfirst hsecond
    | lapse key =>
      obtain ⟨hkept, hfirst⟩ := hfirst
      obtain ⟨hkeeps, hsecond⟩ := hsecond
      rw [hkept] at hfirst
      rw [hkeeps] at hsecond
      rw [calls, calls, hkept, hkeeps]
      exact ih hlater hfound hfirst hsecond
    | call request =>
      obtain ⟨hclock, hfirst⟩ := hfirst
      obtain ⟨-, hsecond⟩ := hsecond
      obtain ⟨hanswer, hafter⟩ :=
        hcall e request List.mem_cons_self rfl hclock ⟨s, []⟩ ⟨t, []⟩ ⟨hfound, rfl⟩
      rw [calls_call, calls_call, List.map_cons, List.map_cons, Call.shown, Call.shown, hanswer,
        hafter.outside, ih hlater hafter.found hfirst hsecond]

end Run

open SenderPolicy.Run

/-- Caches in memory and in a database that is reached, which hold the same under the same text
before their keys, are interchangeable while nothing lapses and the database takes what it is sent:
no surrogates, and no time to live that is too long.  Both answer as one map from keys to texts
does, and expansions show the same.  What the database does not take it does not store, which is a
failure.  In memory it is stored, and a failure comes after that if no clock counts the time to
live. -/
theorem Backend.memory_interchangeable_redis (url space : Text) (e : Environment)
    (hreached : e.redis.IsReached) (m : Cache.Contents) (s t : Store)
    (hs : Cache.Holds space e.clock s m) (ht : Cache.Holds space e.clock t m) :
    (∀ steps : List (Step Cache.Operation),
      (∀ operation, .call operation ∈ steps → operation.IsLasting ⟨.redis url, space⟩) →
      NothingLapses (Cache.perform ⟨.memory, space⟩) e s steps →
      NothingLapses (Cache.perform ⟨.redis url, space⟩) e t steps →
      (calls (Cache.perform ⟨.redis url, space⟩) e t steps).map Call.answer =
          (m.replies steps).map (fun (_, reply) => .ok reply) ∧
        (calls (Cache.perform ⟨.memory, space⟩) e s steps).map Call.answer =
          (m.replies steps).map (fun (_, reply) => .ok reply)) ∧
    (∀ (tuning : Tuning) (ttl : Int) (steps : List (Step Expansion)),
      tuning.pointerCacheTtl = .integer ttl → 0 < ttl → ttl ≤ Redis.longestTtl →
      (∀ expansion : Expansion, .call expansion ∈ steps → (expansion.key space).isEncodable) →
      NothingLapses (Expansion.perform ⟨tuning, ⟨.memory, space⟩⟩) e s steps →
      NothingLapses (Expansion.perform ⟨tuning, ⟨.redis url, space⟩⟩) e t steps →
      (calls (Expansion.perform ⟨tuning, ⟨.memory, space⟩⟩) e s steps).map Call.shown =
        (calls (Expansion.perform ⟨tuning, ⟨.redis url, space⟩⟩) e t steps).map Call.shown) ∧
    (∀ (key value : Text) (ttl : Int) (logged : Bool), ¬Redis.Takes (space ++ key) value ttl →
      ∃ fault, exec (Cache.set ⟨.redis url, space⟩ key value (.integer ttl) logged) e ⟨t, []⟩ =
        (.error (.redis fault),
          ⟨t, [.cache (.redis url) (.set (space ++ key) value (.integer ttl))]⟩)) ∧
    ∀ steps : List (Step Cache.Operation),
      (∀ operation, .call operation ∈ steps → operation.IsLasting ⟨.memory, space⟩) →
      NothingLapses (Cache.perform ⟨.memory, space⟩) e s steps →
      (calls (Cache.perform ⟨.memory, space⟩) e s steps).map Call.answer =
        (m.replies steps).map fun (operation, reply) =>
          if operation.isTooLong then .error (.duration .tooLong) else .ok reply := by
  have hmemoryAnswers {steps : List (Step Cache.Operation)}
      (hlasting : ∀ operation, .call operation ∈ steps → operation.IsLasting ⟨.memory, space⟩)
      (hmemory : NothingLapses (Cache.perform ⟨.memory, space⟩) e s steps) :=
    hs.answers (by simp) hlasting hmemory
  refine ⟨?_, ?_, ?_, ?_⟩
  · intro steps hlasting hmemory hredis
    constructor
    · rw [ht.answers (fun _ _ => hreached) hlasting hredis]
      simp [Cache.Operation.ended]
    · rw [hmemoryAnswers (fun operation hmem => (hlasting operation hmem).memory) hmemory]
      refine List.map_congr_left ?_
      rintro ⟨operation, reply⟩ hmem
      have hshort := (hlasting operation (Cache.Contents.call_mem_of_mem_replies hmem)).not_tooLong
      simp [Cache.Operation.ended, hshort (by simp)]
  · intro tuning ttl steps httl hpos hlong hkeys hmemory hredis
    have hfound (key : Text) : s.find? e.clock (space ++ key) = t.find? e.clock (space ++ key) := by
      rw [hs, ht]
    refine shown_calls (fun later expansion hmem hredis hclock => ?_) hfound hmemory hredis
    exact Expansion.interchangeable_perform (hredis ▸ hreached) hclock hpos hlong httl _ _
      (hkeys expansion hmem)
  · intro key value ttl logged htakes
    obtain ⟨fault, hset⟩ := hreached.set_of_not_takes htakes e.clock
    refine ⟨fault, ?_⟩
    have hstored : Backend.stored (.redis url) e t (space ++ key) value (.integer ttl) =
        (.error (.redis fault), t) := by rw [Backend.stored, hset]; rfl
    rw [Cache.set, exec_bind, Backend.exec_set, hstored]
    rfl
  · intro steps hlasting hmemory
    rw [hmemoryAnswers hlasting hmemory]
    simp [Cache.Operation.ended]

/-- The empty text is held like any other, and a key that is deleted twice is there once.  What one
letter sets in a cache is there for the next string, two seconds later. -/
theorem Backend.memory_interchangeable_redis_mail :
    let operations : List (Step Cache.Operation) :=
      [.call (.set "k" [] (.integer 5) false), .advance (.integer 2), .call (.get "k"),
        .call (.delete "k"), .call (.delete "k"), .call (.get "k")]
    let replies : List (Except Failure Cache.Reply) :=
      [.ok .stored, .ok (.found (some [])), .ok (.deleted true), .ok (.deleted false),
        .ok (.found none)]
    let session := Expander.mailSession (.v4 #v[192, 0, 2, 1])
    let expansions : List (Step Expansion) :=
      [.call ⟨session, .domainSpec, "%\x7bp\x7d"⟩, .advance (.integer 2),
        .call ⟨session, .explanation, "%\x7bp2\x7d"⟩]
    let memory : Cache := ⟨.memory, "a:"⟩
    let redis : Cache := ⟨.redis "redis://localhost:6379/0", "a:"⟩
    let e := Expander.mailEnvironment
    (calls memory.perform e [] operations).map Call.answer = replies ∧
      (calls redis.perform e [] operations).map Call.answer = replies ∧
      (calls (Expansion.perform ⟨Expander.mailExpander.tuning, memory⟩) e [] expansions).map
          Call.shown =
        (calls (Expansion.perform ⟨Expander.mailExpander.tuning, redis⟩) e [] expansions).map
          Call.shown := by
  intro operations replies session expansions memory redis e
  obtain ⟨hoperations, hexpansions, -⟩ := Backend.memory_interchangeable_redis
    "redis://localhost:6379/0" "a:" e Redis.isReached_documented (fun _ => none) [] []
    (fun _ => rfl) fun _ => rfl
  have hlasting : ∀ operation, .call operation ∈ operations →
      operation.IsLasting redis := by
    intro operation hoperation
    simp only [operations, List.mem_cons, Step.call.injEq, reduceCtorEq, List.not_mem_nil,
      false_or, or_false] at hoperation
    rcases hoperation with rfl | rfl | rfl | rfl | rfl
    · exact ⟨5, rfl, by decide, fun _ => ⟨rfl, rfl, by decide⟩⟩
    all_goals exact fun _ => rfl
  obtain ⟨hredis, hmemory⟩ := hoperations operations hlasting (by decide +kernel)
    (by decide +kernel)
  have hkeys : ∀ expansion : Expansion, .call expansion ∈ expansions →
      (expansion.key "a:").isEncodable := by
    intro expansion hexpansion
    simp only [expansions, List.mem_cons, Step.call.injEq, reduceCtorEq, List.not_mem_nil,
      false_or, or_false] at hexpansion
    rcases hexpansion with rfl | rfl <;> decide +kernel
  have hshown := hexpansions Expander.mailExpander.tuning 300 expansions rfl (by decide)
    (by decide) hkeys (by decide +kernel) (by decide +kernel)
  refine ⟨hmemory.trans (by decide +kernel), hredis.trans (by decide +kernel), hshown⟩

/-- The database does not take as many seconds as these.  The caches answer differently, although
nothing lapses. -/
theorem Backend.memory_differs_redis :
    let steps (ttl : Int) : List (Step Cache.Operation) :=
      [.call (.set "k" "v" (.integer ttl) false), .call (.get "k")]
    let memory : Cache := ⟨.memory, []⟩
    let redis : Cache := ⟨.redis "redis://localhost:6379/0", []⟩
    let e := Expander.mailEnvironment
    let refused : Failure := .redis (.refused "invalid expire time in 'set' command")
    NothingLapses memory.perform e [] (steps (10 ^ 309)) ∧
      NothingLapses redis.perform e [] (steps (10 ^ 309)) ∧
      (calls memory.perform e [] (steps (10 ^ 309))).map Call.answer =
        [.error (.duration .tooLong), .ok (.found (some ("v" : Text)))] ∧
      (calls redis.perform e [] (steps (10 ^ 309))).map Call.answer =
        [.error refused, .ok (.found none)] ∧
      (calls memory.perform e [] (steps 9223372036854776)).map Call.answer =
        [.ok .stored, .ok (.found (some ("v" : Text)))] ∧
      (calls redis.perform e [] (steps 9223372036854776)).map Call.answer =
        [.error refused, .ok (.found none)] := by
  decide +kernel

end SenderPolicy
