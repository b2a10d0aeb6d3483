import SenderPolicy.Proofs.Cache.Time
import SenderPolicy.Proofs.ValidatedName.Names

/-! Runs of one validator whose cache is in memory, while the clock moves and the data of the domain
name system changes.  Everything in the store was found at an earlier call, and lapses when that
call said; so what a call returns was found anew at that call or at an earlier one. -/

namespace SenderPolicy

namespace ValidatedName

open SenderPolicy.Action

/-! ### Runs -/

/-- Something that happens to a validator: the clock moves by a number of seconds, the data of the
domain name system changes, or the preferred name of a client is asked for. -/
inductive Step
  | advance (seconds : Value)
  | publish (zone : Zone)
  | ask (client : Address) (domain : Text)

/-- A call for the preferred name of a client, when it was made and what it returned. -/
structure Call where
  environment : Environment
  client : Address
  domain : Text
  answer : Except Failure Text

/-- The calls of a run that starts in an environment and on a state. -/
def run (tuning : Tuning) (cache : Cache) (e : Environment) (s : State) : List Step → List Call
  | [] => []
  | .advance seconds :: steps =>
    match e.advance seconds with
    | .ok later => run tuning cache later (s.elapse e.clock later.clock) steps
    | .error _ => run tuning cache e s steps
  | .publish zone :: steps => run tuning cache { e with zone } s steps
  | .ask client domain :: steps =>
    let (answer, after) := exec (preferred tuning cache client domain) e s
    ⟨e, client, domain, answer⟩ :: run tuning cache e after steps

namespace Call

/-- What would have been found anew at a call. -/
def found (tuning : Tuning) (c : Call) : Except Failure Text :=
  (fresh tuning c.client c.domain).answer c.environment

def key (cache : Cache) (c : Call) : Text := storeKey cache c.client c.domain

def time (c : Call) : Binary64 := c.environment.clock

/-- The deadline of what is stored at a call, if there is one. -/
def deadline (tuning : Tuning) (cache : Cache) (c : Call) : Option Binary64 :=
  cache.backend.deadline c.time tuning.pointerCacheTtl

end Call

variable {tuning : Tuning} {cache : Cache} {space : Text} {past calls before after : List Call}
  {c : Call} {e : Environment} {s : State} {steps : List Step} {store : Store}

/-! ### Where answers come from -/

/-- The entry of a key was stored at one of the calls in `past`. -/
def StoredIn (tuning : Tuning) (cache : Cache) (past : List Call) (item : Text × CacheEntry) :
    Prop :=
  ∃ source ∈ past, item.1 = source.key cache ∧ source.found tuning = .ok item.2.value ∧
    item.2.deadline = source.deadline tuning cache

/-- Everything in a store comes from `past`. -/
def Sourced (tuning : Tuning) (cache : Cache) (past : List Call) (store : Store) : Prop :=
  ∀ item ∈ store, StoredIn tuning cache past item

theorem StoredIn.append {item : Text × CacheEntry} (h : StoredIn tuning cache past item)
    (calls : List Call) : StoredIn tuning cache (past ++ calls) item := by
  obtain ⟨source, hmem, hsource⟩ := h
  exact ⟨source, List.mem_append_left _ hmem, hsource⟩

theorem Sourced.append (h : Sourced tuning cache past store) (calls : List Call) :
    Sourced tuning cache (past ++ calls) store :=
  fun item hitem => (h item hitem).append calls

theorem Sourced.elapse (h : Sourced tuning cache past store) (before now : Binary64) :
    Sourced tuning cache past (store.elapse before now) :=
  fun item hitem => h item (Store.mem_of_mem_elapse hitem)

theorem Sourced.insert {text : Text} (h : Sourced tuning cache past store)
    (hfound : c.found tuning = .ok text) :
    Sourced tuning cache (past ++ [c])
      (store.insert (c.key cache) ⟨text, c.deadline tuning cache⟩) := by
  intro item hitem
  rcases Store.mem_insert hitem with rfl | hitem
  · exact ⟨c, by simp, rfl, hfound, rfl⟩
  · exact (h item hitem).append [c]

/-- Why a call returns what it returns: it is still cached from a call in `past`, the cache fails,
it could not be found, or it was found at the call itself. -/
inductive Explained (tuning : Tuning) (cache : Cache) (past : List Call) (c : Call) : Prop
  | cached (source : Call) (text : Text) (mem : source ∈ past) (ne_nil : text ≠ [])
      (key : source.key cache = c.key cache) (found : source.found tuning = .ok text)
      (live : CacheEntry.isLive ⟨text, source.deadline tuning cache⟩ c.time)
      (answer : c.answer = .ok text)
  | unserved (failure : Failure) (backend : cache.backend ≠ .memory)
      (answer : c.answer = .error failure)
  | failed (failure : Failure) (found : c.found tuning = .error failure)
      (answer : c.answer = .error failure)
  | renewed (text : Text) (store : Store) (found : c.found tuning = .ok text)
      (answer : c.answer = (cache.backend.stored c.environment store (c.key cache) text
        tuning.pointerCacheTtl).1.map fun _ => text)

/-- The step lemma: a call is explained by a store that comes from `past`, and the store after it
comes from `past` and the call. -/
theorem Sourced.call (h : Sourced tuning cache past s.store)
    (hkeys : cache.backend.StoresByKey c.environment.redis)
    (hanswer : c.answer = (exec (preferred tuning cache c.client c.domain) c.environment s).1) :
    Explained tuning cache past c ∧
      Sourced tuning cache (past ++ [c])
        (exec (preferred tuning cache c.client c.domain) c.environment s).2.store := by
  rcases cachedName_cases cache c.environment s.store c.client c.domain with
    ⟨head, cached, hhit⟩ | hmissing | ⟨failure, herror⟩
  · obtain ⟨hresult, hstore⟩ := preferred_of_hit tuning hhit
    obtain ⟨deadline, hmem, hlive⟩ := Store.exists_of_find?_eq_some (hkeys.find?_of_found hhit)
    obtain ⟨source, hsource, hkey, hfound, rfl⟩ := h _ hmem
    rw [hstore]
    exact ⟨.cached source _ hsource (List.cons_ne_nil _ _) hkey.symm hfound hlive
      (hanswer.trans hresult), h.append _⟩
  · obtain ⟨hresult, hstore⟩ := preferred_of_miss tuning hmissing
    rw [← hanswer] at hresult
    rw [hstore]
    cases hfound : c.found tuning with
    | error failure =>
      have hfresh : (fresh tuning c.client c.domain).answer c.environment = .error failure := hfound
      simp only [renewed, hfresh] at hresult ⊢
      exact ⟨.failed failure hfound hresult, h.append [c]⟩
    | ok text =>
      have hfresh : (fresh tuning c.client c.domain).answer c.environment = .ok text := hfound
      simp only [renewed, hfresh] at hresult ⊢
      refine ⟨.renewed text s.store hfound hresult, ?_⟩
      rcases hkeys.stored_cases (c.key cache) text tuning.pointerCacheTtl with ⟨_, hset⟩ | ⟨_, hset⟩
      · rw [Call.key] at hset
        rw [hset]
        exact h.append [c]
      · rw [Call.key] at hset
        rw [hset]
        exact h.insert hfound
  · rw [exec_preferred_of_error tuning herror] at hanswer ⊢
    refine ⟨.unserved failure ?_ hanswer, h.append [c]⟩
    rintro hmemory
    rw [cachedName, hmemory] at herror
    cases herror

/-- The run lemma: every call of a run is explained by the calls before it. -/
theorem Sourced.run (h : Sourced tuning cache past s.store)
    (hkeys : cache.backend.StoresByKey e.redis)
    (hrun : run tuning cache e s steps = before ++ c :: after) :
    Explained tuning cache (past ++ before) c := by
  induction steps generalizing e s past before with
  | nil => simp [ValidatedName.run] at hrun
  | cons step steps ih =>
    cases step with
    | advance seconds =>
      rw [ValidatedName.run] at hrun
      split at hrun
      · next later hadvance =>
        obtain ⟨duration, rfl⟩ := Environment.advance_eq_ok hadvance
        exact ih (e := { e with clock := e.clock + duration }) (h.elapse _ _) hkeys hrun
      · exact ih h hkeys hrun
    | publish zone => exact ih (e := { e with zone }) h hkeys hrun
    | ask client domain =>
      let made : Call := ⟨e, client, domain, (exec (preferred tuning cache client domain) e s).1⟩
      have hrun : made :: ValidatedName.run tuning cache e
          (exec (preferred tuning cache client domain) e s).2 steps = before ++ c :: after := hrun
      obtain ⟨hexplained, hafter⟩ := Sourced.call (c := made) h hkeys rfl
      cases before with
      | nil =>
        obtain ⟨rfl, -⟩ := List.cons.inj hrun
        rw [List.append_nil]
        exact hexplained
      | cons first before =>
        obtain ⟨rfl, hrest⟩ := List.cons.inj hrun
        have := ih hafter hkeys hrest
        rwa [List.append_assoc] at this

theorem eq_of_map_eq_ok {answer : Except Failure Unit} {found text : Text}
    (h : (answer.map fun _ => found) = .ok text) : found = text := by
  cases answer with
  | error failure => cases h
  | ok done => exact Except.ok.inj h

/-! ### Answers and their sources -/

/-- Calls with one key ask for one client, and for domains that differ in case at most. -/
def KeysApart (calls : List Call) : Prop :=
  ∀ c ∈ calls, ∀ d ∈ calls, cacheKey c.client c.domain = cacheKey d.client d.domain →
    c.client = d.client ∧ c.domain.lower = d.domain.lower

/-- `text` is the preferred name at the call `c` by what lookups find at the call `source`, which is
not longer ago than the time to live says. -/
structure FoundAt (tuning : Tuning) (ttl : Int) (source c : Call) (text : Text) : Prop where
  client : source.client = c.client
  chosen : ∃ found, (names tuning c.client).answer source.environment = .ok found ∧
    text = choose found c.domain
  recent : ∃ t u : Rat, source.time.toRat? = some t ∧ c.time.toRat? = some u ∧ t ≤ u ∧
    (0 < ttl → u < t + ttl)
  present : ttl < 0 → source = c

theorem Call.found_eq_ok_iff {text : Text} :
    c.found tuning = .ok text ↔ ∃ found, (names tuning c.client).answer c.environment = .ok found ∧
      text = choose found c.domain :=
  answer_fresh_eq_ok_iff

variable {ttl : Int}

/-- A cached answer was found at its source, and is still recent. -/
theorem foundAt_of_cached {source : Call} {text : Text}
    (httl : tuning.pointerCacheTtl = .integer ttl)
    (hkeys : KeysApart calls) (htime : Cache.KeepsTime ttl (calls.map Call.time))
    (hcalls : calls = before ++ c :: after)
    (hmem : source ∈ before) (hkey : source.key ⟨.memory, space⟩ = c.key ⟨.memory, space⟩)
    (hfound : source.found tuning = .ok text)
    (hlive : CacheEntry.isLive ⟨text, source.deadline tuning ⟨.memory, space⟩⟩ c.time) :
    FoundAt tuning ttl source c text := by
  have hsource : source ∈ calls := by rw [hcalls]; simp [hmem]
  have hc : c ∈ calls := by rw [hcalls]; simp
  have hlater {r : Binary64 → Binary64 → Prop} (h : (calls.map Call.time).Pairwise r) :
      r source.time c.time := by
    rw [List.pairwise_map, hcalls] at h
    exact (List.pairwise_append.1 h).2.2 source hmem c List.mem_cons_self
  have hnotLapsed : ¬ Cache.LapsedBy ttl source.time c.time := fun h => by
    rw [Call.deadline, Backend.deadline, httl, h text] at hlive
    cases hlive
  obtain ⟨hclient, hdomain⟩ := hkeys source hsource c hc (List.append_cancel_left hkey)
  obtain ⟨t, ht⟩ := Option.isSome_iff_exists.1 (htime.finite _ (List.mem_map_of_mem hsource))
  obtain ⟨u, hu⟩ := Option.isSome_iff_exists.1 (htime.finite _ (List.mem_map_of_mem hc))
  refine ⟨hclient, ?_, ⟨t, u, ht, hu, ?_, fun hpos => ?_⟩, fun hneg => ?_⟩
  · obtain ⟨found, hnames, rfl⟩ := Call.found_eq_ok_iff.1 hfound
    exact ⟨found, hclient ▸ hnames, choose_congr hdomain found⟩
  · exact (Binary64.atMost_iff ht hu).1 (hlater htime.forward)
  · by_contra hle
    exact hnotLapsed (hlater htime.lapsed t u ht hu hpos (not_lt.1 hle))
  · exact absurd (hlater htime.void hneg) hnotLapsed

theorem foundAt_self {text : Text} (htime : Cache.KeepsTime ttl (calls.map Call.time))
    (hc : c ∈ calls) (hfound : c.found tuning = .ok text) : FoundAt tuning ttl c c text := by
  obtain ⟨t, ht⟩ := Option.isSome_iff_exists.1 (htime.finite _ (List.mem_map_of_mem hc))
  refine ⟨rfl, Call.found_eq_ok_iff.1 hfound, ⟨t, t, ht, ht, le_rfl, fun hpos => ?_⟩, fun _ => rfl⟩
  have : (0 : Rat) < ttl := by exact_mod_cast hpos
  linarith

theorem exists_foundAt {text : Text} (httl : tuning.pointerCacheTtl = .integer ttl)
    (hkeys : KeysApart calls) (htime : Cache.KeepsTime ttl (calls.map Call.time))
    (hrun : run tuning ⟨.memory, space⟩ e {} steps = calls) (hcalls : calls = before ++ c :: after)
    (hanswer : c.answer = .ok text) :
    ∃ source ∈ before ++ [c], FoundAt tuning ttl source c text := by
  have hc : c ∈ calls := by rw [hcalls]; simp
  have hexplained : Explained tuning ⟨.memory, space⟩ ([] ++ before) c :=
    Sourced.run (fun _ h => absurd h List.not_mem_nil) (Backend.storesByKey_memory _)
      (hrun.trans hcalls)
  cases hexplained with
  | cached source cached hmem _ hkey hfound hlive hcached =>
    obtain rfl : cached = text := Except.ok.inj (hcached.symm.trans hanswer)
    exact ⟨source, List.mem_append_left _ hmem,
      foundAt_of_cached httl hkeys htime hcalls hmem hkey hfound hlive⟩
  | unserved failure hbackend => exact absurd rfl hbackend
  | failed failure hfound hfailed => cases hfailed.symm.trans hanswer
  | renewed found store hfound hrenewed =>
    obtain rfl := eq_of_map_eq_ok (hrenewed.symm.trans hanswer)
    exact ⟨c, by simp, foundAt_self htime hc hfound⟩

/-! ### Times -/

/-- A clock that is exact stays exact, as far as its times are finite. -/
theorem isExact_of_mem_run (hclock : ∀ u, e.clock.toRat? = some u → Binary64.IsExact u)
    (hc : c ∈ run tuning cache e s steps) {u : Rat} (hu : c.time.toRat? = some u) :
    Binary64.IsExact u := by
  induction steps generalizing e s with
  | nil => cases hc
  | cons step steps ih =>
    cases step with
    | advance seconds =>
      rw [run] at hc
      split at hc
      · next later hadvance =>
        obtain ⟨duration, rfl⟩ := Environment.advance_eq_ok hadvance
        exact ih (fun u h => Binary64.isExact_of_toRat?_add h) hc
      · exact ih hclock hc
    | publish zone => exact ih (e := { e with zone }) hclock hc
    | ask client domain =>
      rcases List.mem_cons.1 hc with rfl | hc
      · exact hclock u hu
      · exact ih hclock hc

/-- A run keeps time if its times are finite and in order, and its clock tells ticks at them. -/
theorem keepsTime_run (httl : ttl.natAbs < 2 * Binary64.leastNormal)
    (hclock : ∀ u, e.clock.toRat? = some u → Binary64.IsExact u)
    (hfinite : ∀ c ∈ run tuning cache e s steps, c.time.toRat?.isSome)
    (hforward : (run tuning cache e s steps).Pairwise fun c d => c.time.atMost d.time)
    (htick : ∀ c ∈ run tuning cache e s steps, Clock.hasPassed c.time c.time) :
    Cache.KeepsTime ttl ((run tuning cache e s steps).map Call.time) := by
  refine .of_tick httl (fun now hnow => ?_) (List.pairwise_map.2 hforward) fun now hnow => ?_
  · obtain ⟨c, hc, rfl⟩ := List.mem_map.1 hnow
    obtain ⟨u, hu⟩ := Option.isSome_iff_exists.1 (hfinite c hc)
    exact ⟨u, hu, isExact_of_mem_run hclock hc hu⟩
  · obtain ⟨c, hc, rfl⟩ := List.mem_map.1 hnow
    exact htick c hc

/-! ### Unchanging data -/

/-- While the data does not change, calls differ in their clocks only. -/
theorem run_environment (hquiet : ∀ step ∈ steps, ∀ zone, step ≠ .publish zone)
    (hc : c ∈ run tuning cache e s steps) : ∃ clock, c.environment = { e with clock } := by
  induction steps generalizing e s with
  | nil => cases hc
  | cons step steps ih =>
    have hlater := fun step h => hquiet step (List.mem_cons_of_mem _ h)
    cases step with
    | advance seconds =>
      rw [run] at hc
      split at hc
      · next later hadvance =>
        obtain ⟨duration, rfl⟩ := Environment.advance_eq_ok hadvance
        obtain ⟨now, hnow⟩ := ih hlater hc
        exact ⟨now, hnow⟩
      · exact ih hlater hc
    | publish zone => exact absurd rfl (hquiet _ List.mem_cons_self zone)
    | ask client domain =>
      rcases List.mem_cons.1 hc with rfl | hc
      · exact ⟨e.clock, rfl⟩
      · exact ih hlater hc

theorem Call.found_congr {source : Call} (hclient : source.client = c.client)
    (hdomain : source.domain.lower = c.domain.lower)
    (hsource : ∃ clock, source.environment = { e with clock })
    (hc : ∃ clock, c.environment = { e with clock }) : source.found tuning = c.found tuning := by
  obtain ⟨before, hsource⟩ := hsource
  obtain ⟨now, hc⟩ := hc
  rw [Call.found, Call.found, hsource, hc, (usesNoCache_fresh _ _ _).answer_clock e before,
    (usesNoCache_fresh _ _ _).answer_clock e now, hclient, answer_fresh_congr hdomain]

/-- While the data does not change, calls with one key find the same anew. -/
theorem Call.found_of_key {source : Call}
    (hkeys : KeysApart (run tuning ⟨.memory, space⟩ e {} steps))
    (hquiet : ∀ step ∈ steps, ∀ zone, step ≠ .publish zone)
    (hsource : source ∈ run tuning ⟨.memory, space⟩ e {} steps)
    (hc : c ∈ run tuning ⟨.memory, space⟩ e {} steps)
    (hkey : source.key ⟨.memory, space⟩ = c.key ⟨.memory, space⟩) :
    source.found tuning = c.found tuning := by
  obtain ⟨hclient, hdomain⟩ := hkeys source hsource c hc (List.append_cancel_left hkey)
  exact found_congr hclient hdomain (run_environment hquiet hsource) (run_environment hquiet hc)

/-! ### Times to live that are too long -/

theorem Call.deadline_of_not_isInRange (httl : tuning.pointerCacheTtl = .integer ttl)
    (hrange : ¬Binary64.isInRange ttl) (c : Call) :
    c.deadline tuning ⟨.memory, space⟩ = none := by
  rw [deadline, Backend.deadline, httl, Store.deadline?_of_not_isInRange hrange]
  rfl

/-- Whatever a call in `past` found, unless it is the empty name, some name is there under its key,
and no deadline takes it away. -/
structure Kept (tuning : Tuning) (space : Text) (past : List Call) (store : Store) : Prop where
  found : ∀ source ∈ past, ∀ head rest, source.found tuning = .ok (head :: rest) →
    ∃ head rest, ∀ now,
      store.find? now (source.key ⟨.memory, space⟩) = some (head :: rest)
  lasting : ∀ item ∈ store, item.2.deadline = none

theorem Kept.elapse (h : Kept tuning space past store) (before now : Binary64) :
    store.elapse before now = store := by
  rw [Store.elapse, Store.sweep_of_lasting h.lasting, Store.sweep_of_lasting h.lasting]

/-- The step lemma: a call whose deadline cannot be told returns a name where one is kept, and else
keeps the one that it finds. -/
theorem Kept.call (h : Kept tuning space past s.store)
    (hlasting : c.deadline tuning ⟨.memory, space⟩ = none)
    (hanswer : c.answer =
      (exec (preferred tuning ⟨.memory, space⟩ c.client c.domain) c.environment s).1) :
    (∀ source ∈ past, source.key ⟨.memory, space⟩ = c.key ⟨.memory, space⟩ →
      ∀ head rest, source.found tuning = .ok (head :: rest) → ∃ text, c.answer = .ok text) ∧
      Kept tuning space (past ++ [c])
        (exec (preferred tuning ⟨.memory, space⟩ c.client c.domain) c.environment s).2.store := by
  rcases cachedName_cases ⟨.memory, space⟩ c.environment s.store c.client c.domain with
    ⟨head, cached, hhit⟩ | hmissing | ⟨failure, herror⟩
  · obtain ⟨hresult, hstore⟩ := preferred_of_hit tuning hhit
    rw [hstore]
    refine ⟨fun _ _ _ _ _ _ => ⟨_, hanswer.trans hresult⟩, fun source hsource => ?_, h.lasting⟩
    rcases List.mem_append.1 hsource with hsource | hsource
    · exact h.found source hsource
    · obtain rfl := List.mem_singleton.1 hsource
      refine fun _ _ _ => ⟨head, cached, fun now => ?_⟩
      rw [Store.find?_of_lasting h.lasting now source.environment.clock]
      exact Except.ok.inj hhit
  · obtain ⟨hresult, hstore⟩ := preferred_of_miss tuning hmissing
    -- Where a name is kept, none is missing.
    have hother : ∀ source ∈ past, ∀ head rest, source.found tuning = .ok (head :: rest) →
        source.key ⟨.memory, space⟩ ≠ c.key ⟨.memory, space⟩ := by
      intro source hsource head rest hfound hkey
      obtain ⟨head, rest, hkept⟩ := h.found source hsource head rest hfound
      rw [hkey] at hkept
      exact (isMissing_iff_of_memory rfl).1 hmissing head rest (hkept c.environment.clock)
    refine ⟨fun source hsource hkey head rest hfound =>
      absurd hkey (hother source hsource head rest hfound), ?_⟩
    rw [hstore]
    cases hfound : c.found tuning with
    | error failure =>
      have hfresh : (fresh tuning c.client c.domain).answer c.environment = .error failure := hfound
      simp only [renewed, hfresh]
      refine ⟨fun source hsource head rest hsome => ?_, h.lasting⟩
      rcases List.mem_append.1 hsource with hsource | hsource
      · exact h.found source hsource head rest hsome
      · obtain rfl := List.mem_singleton.1 hsource
        cases hfound.symm.trans hsome
    | ok text =>
      have hfresh : (fresh tuning c.client c.domain).answer c.environment = .ok text := hfound
      have hstored : (renewed tuning ⟨.memory, space⟩ c.client c.domain c.environment s.store).2 =
          s.store.insert (c.key ⟨.memory, space⟩) ⟨text, c.deadline tuning ⟨.memory, space⟩⟩ :=
        renewed_of_ok hfresh
      rw [hstored, hlasting]
      refine ⟨fun source hsource head rest hsome => ?_, fun item hitem => ?_⟩
      · rcases List.mem_append.1 hsource with hsource | hsource
        · obtain ⟨name, more, hkept⟩ := h.found source hsource head rest hsome
          refine ⟨name, more, fun now => ?_⟩
          rw [Store.find?_insert_ne _ _ _ (hother source hsource head rest hsome), hkept now]
        · obtain rfl := List.mem_singleton.1 hsource
          obtain rfl : text = head :: rest := Except.ok.inj (hfound.symm.trans hsome)
          exact ⟨head, rest, fun now => Store.find?_insert_self _ _ _ _⟩
      · rcases Store.mem_insert hitem with rfl | hitem
        · rfl
        · exact h.lasting item hitem
  · cases herror

/-- The run lemma: a name that is found at a call is returned at all later calls with its key. -/
theorem Kept.run (h : Kept tuning space past s.store)
    (hlasting : ∀ c : Call, c.deadline tuning ⟨.memory, space⟩ = none)
    (hrun : run tuning ⟨.memory, space⟩ e s steps = before ++ c :: after) :
    ∀ source ∈ past ++ before, source.key ⟨.memory, space⟩ = c.key ⟨.memory, space⟩ →
      ∀ head rest, source.found tuning = .ok (head :: rest) → ∃ text, c.answer = .ok text := by
  induction steps generalizing e s past before with
  | nil => simp [ValidatedName.run] at hrun
  | cons step steps ih =>
    cases step with
    | advance seconds =>
      rw [ValidatedName.run] at hrun
      split at hrun
      · refine ih ?_ hrun
        rw [State.elapse, h.elapse]
        exact h
      · exact ih h hrun
    | publish zone => exact ih h hrun
    | ask client domain =>
      let made : Call :=
        ⟨e, client, domain, (exec (preferred tuning ⟨.memory, space⟩ client domain) e s).1⟩
      have hrun : made :: ValidatedName.run tuning ⟨.memory, space⟩ e
          (exec (preferred tuning ⟨.memory, space⟩ client domain) e s).2 steps =
            before ++ c :: after := hrun
      obtain ⟨hreturned, hafter⟩ := h.call (hlasting made) rfl
      cases before with
      | nil =>
        obtain ⟨rfl, -⟩ := List.cons.inj hrun
        rw [List.append_nil]
        exact hreturned
      | cons first before =>
        obtain ⟨rfl, hrest⟩ := List.cons.inj hrun
        have := ih hafter hrest
        rwa [List.append_assoc] at this

/-! ### Answers while the data does not change -/

/-- Whether an earlier call has the key of this one, and the name that both find is not empty. -/
def IsRepeated (cache : Cache) (before : List Call) (c : Call) (text : Text) : Prop :=
  text ≠ [] ∧ ∃ source ∈ before, source.key cache = c.key cache

/-- While the data does not change, a call returns what it would find anew, but where the time to
live is too long for a clock: then the first call that finds a name fails once that is stored, as
do all calls that find the empty one. -/
theorem answer_of_quiet (httl : tuning.pointerCacheTtl = .integer ttl)
    (hkeys : KeysApart (run tuning ⟨.memory, space⟩ e {} steps))
    (hquiet : ∀ step ∈ steps, ∀ zone, step ≠ .publish zone)
    (hcalls : run tuning ⟨.memory, space⟩ e {} steps = before ++ c :: after) :
    (∀ text, c.answer = .ok text → c.found tuning = .ok text) ∧
      (Binary64.isInRange ttl → c.answer = c.found tuning) ∧
      (¬Binary64.isInRange ttl →
        (∀ failure, c.found tuning = .error failure → c.answer = .error failure) ∧
        ∀ text, c.found tuning = .ok text →
          (IsRepeated ⟨.memory, space⟩ before c text → c.answer = .ok text) ∧
          (¬IsRepeated ⟨.memory, space⟩ before c text →
            c.answer = .error (.duration .tooLong))) := by
  have hc : c ∈ run tuning ⟨.memory, space⟩ e {} steps := by rw [hcalls]; simp
  have hbefore {source : Call} (hsource : source ∈ before) :
      source ∈ run tuning ⟨.memory, space⟩ e {} steps := by rw [hcalls]; simp [hsource]
  have hexplained : Explained tuning ⟨.memory, space⟩ ([] ++ before) c :=
    Sourced.run (fun _ h => absurd h List.not_mem_nil) (Backend.storesByKey_memory _) hcalls
  rw [List.nil_append] at hexplained
  cases hexplained with
  | cached source cached hmem hne hkey hfound hlive hcached =>
    have hsame := hfound ▸ Call.found_of_key hkeys hquiet (hbefore hmem) hc hkey
    rw [hcached, ← hsame]
    refine ⟨fun _ h => h, fun _ => rfl, fun _ => ⟨nofun, fun text htext => ?_⟩⟩
    obtain rfl := Except.ok.inj htext
    exact ⟨fun _ => rfl, fun h => absurd ⟨hne, source, hmem, hkey⟩ h⟩
  | unserved failure hbackend => exact absurd rfl hbackend
  | failed failure hfound hfailed =>
    rw [hfound, hfailed]
    exact ⟨fun _ h => h, fun _ => rfl, fun _ => ⟨fun _ h => h, nofun⟩⟩
  | renewed found store hfound hrenewed =>
    rw [httl] at hrenewed
    refine ⟨fun text htext => ?_, fun hrange => ?_, fun hrange => ⟨?_, fun text htext => ?_⟩⟩
    · rw [hfound, eq_of_map_eq_ok (hrenewed.symm.trans htext)]
    · obtain ⟨deadline, hdeadline⟩ := Store.exists_deadline hrange c.time
      rw [hrenewed, hfound, Backend.stored_memory hdeadline]
      rfl
    · rw [hfound]
      nofun
    · rw [Backend.stored_of_not_isInRange hrange] at hrenewed
      refine ⟨?_, fun _ => hrenewed⟩
      rintro ⟨hne, source, hsource, hkey⟩
      obtain ⟨head, rest, rfl⟩ := List.exists_cons_of_ne_nil hne
      have hsame : source.found tuning = c.found tuning :=
        Call.found_of_key hkeys hquiet (hbefore hsource) hc hkey
      have hkept : Kept tuning space [] (State.store {}) := ⟨by simp, by simp⟩
      obtain ⟨other, hanswer⟩ := hkept.run (Call.deadline_of_not_isInRange httl hrange) hcalls
        source (by simpa using hsource) hkey head rest (hsame.trans htext)
      rw [hrenewed] at hanswer
      cases hanswer

/-- What a call returns was found at that call or at an earlier one that is still recent; and while
the data does not change, a call returns what it would find anew.  Where the time to live is too
long for a clock, a call that finds no name in the cache stores what it finds and then fails. -/
theorem cached_answer_exact {steps : List Step} (tuning : Tuning) (space : Text) (ttl : Int)
    (e : Environment) (httl : tuning.pointerCacheTtl = .integer ttl)
    (hkeys : KeysApart (run tuning ⟨.memory, space⟩ e {} steps)) :
    (Cache.KeepsTime ttl ((run tuning ⟨.memory, space⟩ e {} steps).map Call.time) →
      ∀ before c after text, run tuning ⟨.memory, space⟩ e {} steps = before ++ c :: after →
        c.answer = .ok text → ∃ source ∈ before ++ [c], FoundAt tuning ttl source c text) ∧
    ((∀ step ∈ steps, ∀ zone, step ≠ .publish zone) →
      ∀ before c after, run tuning ⟨.memory, space⟩ e {} steps = before ++ c :: after →
        (∀ text, c.answer = .ok text → c.found tuning = .ok text) ∧
        (Binary64.isInRange ttl → c.answer = c.found tuning) ∧
        (¬Binary64.isInRange ttl →
          (∀ failure, c.found tuning = .error failure → c.answer = .error failure) ∧
          ∀ text, c.found tuning = .ok text →
            (IsRepeated ⟨.memory, space⟩ before c text → c.answer = .ok text) ∧
            (¬IsRepeated ⟨.memory, space⟩ before c text →
              c.answer = .error (.duration .tooLong)))) :=
  ⟨fun htime _ _ _ _ hcalls hanswer => exists_foundAt httl hkeys htime rfl hcalls hanswer,
    fun hquiet _ _ _ hcalls => answer_of_quiet httl hkeys hquiet hcalls⟩

/-- A zone in which the one pointer of 192.0.2.1 is a name that has this address. -/
def mailZone : Zone where
  pointers := Zone.replace Zone.empty.pointers "1.2.0.192.in-addr.arpa"
    (.answer [.ofStrings ["mail", "example"]])
  ipv4Hosts := Zone.replace Zone.empty.ipv4Hosts "mail.example"
    (.answer ⟨["192.0.2.1"], some (.integer 60)⟩)
  ipv6Hosts := Zone.empty.ipv6Hosts
  texts := Zone.empty.texts

/-- Two calls 299 seconds apart, of which the second one finds no data any more. -/
def mailSteps : List Step :=
  [.ask (.v4 #v[192, 0, 2, 1]) "Example", .publish .empty, .advance (.integer 299),
    .ask (.v4 #v[192, 0, 2, 1]) "eXample"]

/-- For 300 seconds the answer is still the one that was found at the first call. -/
theorem cached_answer_exact_mail :
    let calls := run (.ofSettings {}) ⟨.memory, []⟩ ⟨mailZone, .ok {}, Clock.zero, .documented⟩ {}
      mailSteps
    calls.map Call.answer = [.ok ("mail.example" : Text), .ok ("mail.example" : Text)] ∧
    KeysApart calls ∧ Cache.KeepsTime 300 (calls.map Call.time) ∧
    ∀ before c after text, calls = before ++ c :: after → c.answer = .ok text →
      ∃ source ∈ before ++ [c], FoundAt (.ofSettings {}) 300 source c text := by
  intro calls
  have hkeys : KeysApart calls := by
    rw [KeysApart]
    decide +kernel
  have hclock : ∀ u, Clock.zero.toRat? = some u → Binary64.IsExact u := fun u hu =>
    Binary64.isExact_of_toRat?_ofRat (x := ((0 : Int) : Rat)) hu
  have htime : Cache.KeepsTime 300 (calls.map Call.time) :=
    keepsTime_run (by decide) hclock (by decide +kernel) (by decide +kernel) (by decide +kernel)
  exact ⟨by decide +kernel, hkeys, htime,
    (cached_answer_exact (.ofSettings {}) [] 300 _ rfl hkeys).1 htime⟩

/-- With a time to live that no clock can count, the first call fails where one without a cache
returns the name, and the second one returns it. -/
theorem cached_answer_overflow :
    let tuning : Tuning := .ofSettings { pointerCacheTtl := 10 ^ 309 }
    let calls := run tuning ⟨.memory, []⟩ ⟨mailZone, .ok {}, Clock.zero, .documented⟩ {}
      [.ask (.v4 #v[192, 0, 2, 1]) "Example", .ask (.v4 #v[192, 0, 2, 1]) "eXample"]
    calls.map Call.answer = [.error (.duration .tooLong), .ok ("mail.example" : Text)] ∧
      calls.map (Call.found tuning) =
        [.ok ("mail.example" : Text), .ok ("mail.example" : Text)] := by
  intro tuning calls
  exact ⟨by decide +kernel, by decide +kernel⟩

end ValidatedName

end SenderPolicy
