import Mathlib.Data.List.GetD
import SenderPolicy.Proofs.Action
import SenderPolicy.Startup

/-! The default cache and the default expander of a process.  An expander keeps the cache that was
the default when it was made, so a start, which opens the default cache anew, gives its expander
that cache only where it makes the expander itself.  It does so unless an expander is left from
before: `serves` says when one is, request by request. -/

namespace SenderPolicy

open SenderPolicy.ServiceAction

variable {e : Environment} {s : Services} {settings : Settings}

/-! ### Defaults -/

namespace Services

/-- The services once a cache has been opened as the default. -/
def cached (s : Services) (cache : Cache) : Services :=
  { s with
    caches := s.caches ++ [{ cache }]
    defaultCache := some s.caches.length
    trace := s.trace ++ cache.opening }

theorem cacheAt_cached (s : Services) (cache : Cache) :
    (s.cached cache).cacheAt s.caches.length = { cache } := by
  simp [cacheAt, cached]

/-- The services once an expander has been made as the default. -/
def served (s : Services) (expander : ServedExpander) : Services :=
  { s with
    expanders := s.expanders ++ [expander]
    defaultExpander := some s.expanders.length }

theorem expanderAt_served (s : Services) (expander : ServedExpander) :
    (s.served expander).expanderAt s.expanders.length = expander := by
  simp [expanderAt, served]

/-- The place of the default cache and the services once there is one. -/
def withDefaultCache (s : Services) (settings : Settings) : Nat × Services :=
  match s.defaultCache with
  | some cacheId => (cacheId, s)
  | none => (s.caches.length, s.cached (.ofSettings settings))

theorem exec_withoutCache {α : Type} (action : Action α) (e : Environment) (s : Services) :
    exec (withoutCache action) e s =
      ((action.exec e ⟨[], s.trace⟩).1,
        { s with trace := (action.exec e ⟨[], s.trace⟩).2.trace }) := by
  have hread (services : Services) : exec read e services = (.ok e, services) := rfl
  have hset (before services : Services) : exec (set services) e before = (.ok (), services) := rfl
  unfold withoutCache runOn
  simp only [exec_bind, exec_get, hread, hset]
  rcases action.exec e ⟨[], s.trace⟩ with ⟨failure | a, after⟩
  · rfl
  · rfl

/-- An action that never fails does nothing to the services but to add events. -/
theorem exists_exec_withoutCache {action : Action PUnit}
    (h : Action.FailsOnly (fun _ => False) e action) (s : Services) :
    ∃ trace, exec (withoutCache action) e s = (.ok (), { s with trace }) := by
  rw [exec_withoutCache]
  cases hanswer : (action.exec e ⟨[], s.trace⟩).1 with
  | error failure => exact (h _ failure hanswer).elim
  | ok a => exact ⟨_, rfl⟩

theorem exec_processSettings (e : Environment) (s : Services) :
    exec (withoutCache Action.processSettings) e s = (e.settings.mapError .settings, s) := by
  rw [exec_withoutCache, Action.exec_processSettings]

theorem exec_replaceCache (settings : Settings) (e : Environment) (s : Services) :
    exec (replaceCache settings) e s = (.ok s.caches.length, s.cached (.ofSettings settings)) := rfl

theorem exec_currentCache_of_some {cacheId : Nat} (h : s.defaultCache = some cacheId)
    (e : Environment) : exec currentCache e s = (.ok cacheId, s) := by
  rw [currentCache, exec_bind, exec_get]
  simp only [h, exec_pure]

theorem exec_currentCache (he : e.settings = .ok settings) (s : Services) :
    exec currentCache e s =
      (.ok (s.withDefaultCache settings).1, (s.withDefaultCache settings).2) := by
  cases h : s.defaultCache with
  | some cacheId => rw [exec_currentCache_of_some h, withDefaultCache, h]
  | none =>
    rw [currentCache, exec_bind, exec_get]
    simp only [h, exec_bind, exec_processSettings, he, withDefaultCache]
    rfl

theorem exec_currentCache_of_error {faults : List Settings.Fault}
    (he : e.settings = .error faults) (s : Services) : (exec currentCache e s).2 = s := by
  cases h : s.defaultCache with
  | some cacheId => rw [exec_currentCache_of_some h]
  | none =>
    rw [currentCache, exec_bind, exec_get]
    simp only [h, exec_bind, exec_processSettings, he]
    rfl

theorem exec_currentExpander_of_some {expanderId : Nat} (h : s.defaultExpander = some expanderId)
    (e : Environment) : exec currentExpander e s = (.ok expanderId, s) := by
  rw [currentExpander, exec_bind, exec_get]
  simp only [h, exec_pure]

theorem exec_currentExpander_of_none (h : s.defaultExpander = none)
    (he : e.settings = .ok settings) :
    exec currentExpander e s =
      (.ok (s.withDefaultCache settings).2.expanders.length,
        (s.withDefaultCache settings).2.served
          ⟨.ofSettings settings, (s.withDefaultCache settings).1⟩) := by
  rw [currentExpander, exec_bind, exec_get]
  simp only [h, exec_bind, exec_processSettings, he, exec_currentCache he]
  rfl

theorem exec_currentExpander_of_error {faults : List Settings.Fault}
    (h : s.defaultExpander = none) (he : e.settings = .error faults) :
    exec currentExpander e s = (.error (.settings faults), s) := by
  rw [currentExpander, exec_bind, exec_get]
  simp only [h, exec_bind, exec_processSettings, he]
  rfl

end Services

/-! ### Starts -/

/-- Whether a process starts: its settings are valid, and they name a log level. -/
def Environment.starts (e : Environment) : Bool :=
  match e.settings with
  | .ok settings => (LogLevel.numberOf? settings.logLevel.upper).isSome
  | .error _ => false

namespace Startup

/-- The services once a start has opened the default cache and added events. -/
def opened (s : Services) (settings : Settings) (trace : List Event) : Services :=
  { s.cached (.ofSettings settings) with trace }

theorem exec_run_of_not_starts (h : e.starts = false) (s : Services) :
    ∃ failure, exec run e s = (.error failure, s) := by
  rw [run, exec_bind, Services.exec_processSettings]
  cases hsettings : e.settings with
  | error faults => exact ⟨.settings faults, rfl⟩
  | ok settings =>
    rw [Environment.starts, hsettings] at h
    have hlevel : LogLevel.numberOf? settings.logLevel.upper = none := by simpa using h
    refine ⟨.unknownLevel settings.logLevel.upper, ?_⟩
    simp only [Except.mapError, hlevel]
    rfl

theorem failsOnly_start {p : Failure → Prop} (he : e.settings = .ok settings) :
    Action.FailsOnly p e Reporting.start := by
  refine (Action.failsOnly_processSettings (Action.coversSettings_of_ok he)).bind fun settings => ?_
  split
  · exact Action.failsOnly_record _
  · exact Action.failsOnly_pure _

/-- A start opens the default cache, adds events, and asks for the default expander. -/
theorem exec_run_of_starts (h : e.starts = true) (s : Services) :
    ∃ settings level trace, e.settings = .ok settings ∧
      exec run e s =
        ((exec Services.currentExpander e (opened s settings trace)).1.map fun expanderId =>
            ⟨level, settings.dnsTimeout, settings.dnsLifetime, expanderId⟩,
          (exec Services.currentExpander e (opened s settings trace)).2) := by
  cases hsettings : e.settings with
  | error faults =>
    rw [Environment.starts, hsettings] at h
    cases h
  | ok settings =>
    rw [Environment.starts, hsettings] at h
    obtain ⟨level, hlevel⟩ := Option.isSome_iff_exists.1 h
    obtain ⟨reported, hstart⟩ := Services.exists_exec_withoutCache (failsOnly_start hsettings) s
    have hlast (after : Services) :
        exec (Services.currentExpander >>= fun expanderId =>
            pure (Startup.mk level settings.dnsTimeout settings.dnsLifetime expanderId)) e after =
          ((exec Services.currentExpander e after).1.map fun expanderId =>
            ⟨level, settings.dnsTimeout, settings.dnsLifetime, expanderId⟩,
          (exec Services.currentExpander e after).2) := by
      rw [exec_bind]
      rcases exec Services.currentExpander e after with ⟨failure | expanderId, last⟩
      · rfl
      · rfl
    rw [run, exec_bind, Services.exec_processSettings, hsettings]
    simp only [Except.mapError, hlevel, exec_bind, hstart, Services.exec_replaceCache]
    by_cases hnotices : level ≤ LogLevel.info.number
    · have hlogs : Action.FailsOnly (fun _ => False) e
          ((notices settings).forM (Action.log .app .info)) :=
        .forM (fun _ => Action.failsOnly_record _) _
      obtain ⟨trace, hlogged⟩ := Services.exists_exec_withoutCache hlogs
        (({ s with trace := reported } : Services).cached (.ofSettings settings))
      refine ⟨settings, level, trace, rfl, ?_⟩
      rw [if_pos hnotices, exec_bind, hlogged]
      exact hlast _
    · rw [if_neg hnotices]
      exact ⟨settings, level, _, rfl, hlast _⟩

end Startup

/-! ### Requests -/

namespace Services

/-- Something that is asked of the services of a process: for the default expander or the default
cache, to forget either, to make another cache the default, which is opened from settings or by the
caller or has been opened before, or to start the process. -/
inductive Request
  | currentExpander
  | forgetExpander
  | currentCache
  | replaceCache (settings : Settings)
  | installCache (cache : Cache)
  | restoreCache (cacheId : Nat)
  | forgetCache
  | start

/-- The services after a request that is made in an environment. -/
def after (s : Services) : Environment × Request → Services
  | (e, .currentExpander) => (exec currentExpander e s).2
  | (e, .forgetExpander) => (exec (setDefaultExpander none) e s).2
  | (e, .currentCache) => (exec currentCache e s).2
  | (e, .replaceCache settings) => (exec (replaceCache settings) e s).2
  | (e, .installCache cache) => (exec (openCache cache >>= fun id => setDefaultCache id) e s).2
  | (e, .restoreCache cacheId) =>
    if cacheId < s.caches.length then (exec (setDefaultCache (some cacheId)) e s).2 else s
  | (e, .forgetCache) => (exec (setDefaultCache none) e s).2
  | (e, .start) => (exec Startup.run e s).2

/-- The services after some requests. -/
def replay (s : Services) (history : List (Environment × Request)) : Services :=
  history.foldl after s

/-- Whether there is a default expander after a request, by whether there is one before it. -/
def serves (served : Bool) : Environment × Request → Bool
  | (e, .currentExpander) => served || e.settings.isOk
  | (e, .start) => served || e.starts
  | (_, .forgetExpander) => false
  | _ => served

/-- Every place that is kept is that of a cache or of an expander that there is. -/
structure WellPlaced (s : Services) : Prop where
  cache : ∀ cacheId, s.defaultCache = some cacheId → cacheId < s.caches.length
  expander : ∀ expanderId, s.defaultExpander = some expanderId → expanderId < s.expanders.length
  used : ∀ expander ∈ s.expanders, expander.cacheId < s.caches.length

theorem WellPlaced.cached (h : WellPlaced s) (cache : Cache) (trace : List Event) :
    WellPlaced { s.cached cache with trace } where
  cache cacheId hcache := by
    obtain rfl := Option.some.inj hcache
    simp [Services.cached]
  expander := h.expander
  used expander hexpander := by
    simpa [Services.cached] using Nat.lt_succ_of_lt (h.used expander hexpander)

theorem WellPlaced.served {expander : ServedExpander} (h : WellPlaced s)
    (hcache : expander.cacheId < s.caches.length) : WellPlaced (s.served expander) where
  cache := h.cache
  expander expanderId hexpander := by
    obtain rfl := Option.some.inj hexpander
    simp [Services.served]
  used other hother := by
    rcases List.mem_append.1 hother with hother | hother
    · exact h.used other hother
    · rwa [List.mem_singleton.1 hother]

/-- The cache of a default expander has been opened. -/
theorem WellPlaced.cacheId_lt {expanderId : Nat} (h : WellPlaced s)
    (hexpander : s.defaultExpander = some expanderId) :
    (s.expanderAt expanderId).cacheId < s.caches.length := by
  have hplace := h.expander expanderId hexpander
  rw [expanderAt, List.getD_eq_getElem _ _ hplace]
  exact h.used _ (List.getElem_mem hplace)

/-- The default cache is opened without any change to the expanders. -/
theorem WellPlaced.withDefaultCache (h : WellPlaced s) (settings : Settings) :
    WellPlaced (s.withDefaultCache settings).2 ∧
      (s.withDefaultCache settings).1 < (s.withDefaultCache settings).2.caches.length ∧
      (s.withDefaultCache settings).2.defaultExpander = s.defaultExpander := by
  unfold Services.withDefaultCache
  cases hcache : s.defaultCache with
  | some cacheId => exact ⟨h, h.cache cacheId hcache, rfl⟩
  | none => exact ⟨h.cached _ _, by simp [Services.cached], rfl⟩

/-- The step lemma for the default expander. -/
theorem WellPlaced.currentExpander (h : WellPlaced s) (e : Environment) :
    WellPlaced (exec currentExpander e s).2 ∧
      (exec currentExpander e s).2.defaultExpander.isSome =
        (s.defaultExpander.isSome || e.settings.isOk) := by
  cases hexpander : s.defaultExpander with
  | some expanderId =>
    rw [exec_currentExpander_of_some hexpander]
    exact ⟨h, by rw [hexpander]; rfl⟩
  | none =>
    cases hsettings : e.settings with
    | error faults =>
      rw [exec_currentExpander_of_error hexpander hsettings]
      exact ⟨h, by rw [hexpander]; rfl⟩
    | ok settings =>
      rw [exec_currentExpander_of_none hexpander hsettings]
      obtain ⟨hplaced, hlt, -⟩ := h.withDefaultCache settings
      exact ⟨hplaced.served hlt, rfl⟩

/-- The step lemma: requests keep all places, and `serves` says whether there is an expander. -/
theorem WellPlaced.after (h : WellPlaced s) (call : Environment × Request) :
    WellPlaced (s.after call) ∧
      (s.after call).defaultExpander.isSome = serves s.defaultExpander.isSome call := by
  obtain ⟨e, request⟩ := call
  cases request with
  | currentExpander => exact h.currentExpander e
  | forgetExpander => exact ⟨⟨h.cache, nofun, h.used⟩, rfl⟩
  | currentCache =>
    cases hsettings : e.settings with
    | ok settings =>
      obtain ⟨hplaced, -, hexpander⟩ := h.withDefaultCache settings
      rw [Services.after, exec_currentCache hsettings, hexpander]
      exact ⟨hplaced, rfl⟩
    | error faults =>
      rw [Services.after, exec_currentCache_of_error hsettings]
      exact ⟨h, rfl⟩
  | replaceCache settings => exact ⟨h.cached _ _, rfl⟩
  | installCache cache => exact ⟨h.cached _ _, rfl⟩
  | restoreCache cacheId =>
    rw [Services.after]
    split
    · next hcache =>
      refine ⟨⟨?_, h.expander, h.used⟩, rfl⟩
      intro other hother
      obtain rfl := Option.some.inj hother
      exact hcache
    · exact ⟨h, rfl⟩
  | forgetCache => exact ⟨⟨nofun, h.expander, h.used⟩, rfl⟩
  | start =>
    rw [Services.after]
    cases hstarts : e.starts with
    | false =>
      obtain ⟨failure, hrun⟩ := Startup.exec_run_of_not_starts hstarts s
      rw [hrun, serves, hstarts, Bool.or_false]
      exact ⟨h, rfl⟩
    | true =>
      obtain ⟨settings, level, trace, hsettings, hrun⟩ := Startup.exec_run_of_starts hstarts s
      obtain ⟨hplaced, hexpander⟩ := (h.cached (.ofSettings settings) trace).currentExpander e
      rw [hrun, serves, hstarts, Bool.or_true]
      refine ⟨hplaced, hexpander.trans ?_⟩
      rw [hsettings]
      exact Bool.or_true _

theorem wellPlaced_empty : WellPlaced {} := ⟨nofun, nofun, nofun⟩

/-- The run lemma: whether there is a default expander follows from the requests. -/
theorem WellPlaced.replay (h : WellPlaced s) (history : List (Environment × Request)) :
    WellPlaced (s.replay history) ∧
      (s.replay history).defaultExpander.isSome =
        history.foldl serves s.defaultExpander.isSome := by
  induction history generalizing s with
  | nil => exact ⟨h, rfl⟩
  | cons call history ih =>
    obtain ⟨hplaced, hserves⟩ := h.after call
    rw [List.foldl_cons, ← hserves]
    exact ih hplaced

end Services

namespace Startup

open Services

/-- After a start, the default expander is the one that it returns, and the default cache is one
that it has opened from the settings, with nothing in it.  That is the cache of the expander exactly
if the requests before it have left no default expander. -/
theorem expander_has_cache_iff (history : List (Environment × Request)) (e : Environment)
    (started : Startup) (after : Services)
    (h : exec run e (Services.replay {} history) = (.ok started, after)) :
    (∀ other, exec currentExpander other after = (.ok started.expanderId, after)) ∧
    ∃ settings cacheId, e.settings = .ok settings ∧
      (∀ other, exec currentCache other after = (.ok cacheId, after)) ∧
      after.cacheAt cacheId = { cache := .ofSettings settings } ∧
      ((after.expanderAt started.expanderId).cacheId = cacheId ↔
        history.foldl serves false = false) := by
  obtain ⟨hplaced, hserved⟩ := wellPlaced_empty.replay history
  generalize Services.replay {} history = before at h hplaced hserved
  have hstarts : e.starts = true := by
    by_contra hnot
    obtain ⟨failure, hfailed⟩ := exec_run_of_not_starts (Bool.eq_false_iff.2 hnot) before
    rw [hfailed] at h
    cases h
  obtain ⟨settings, level, trace, hsettings, hrun⟩ := exec_run_of_starts hstarts before
  rw [hrun] at h
  have hserved : before.defaultExpander.isSome = history.foldl serves false := hserved
  rw [← hserved]
  have hcache : (opened before settings trace).cacheAt before.caches.length =
      { cache := .ofSettings settings } := cacheAt_cached before _
  cases hexpander : before.defaultExpander with
  | some expanderId =>
    have hkept : (opened before settings trace).defaultExpander = some expanderId := hexpander
    rw [exec_currentExpander_of_some hkept] at h
    obtain ⟨hstarted, rfl⟩ := Prod.mk.inj h
    obtain rfl := Except.ok.inj hstarted
    refine ⟨fun other => exec_currentExpander_of_some hkept other, settings, before.caches.length,
      hsettings, fun other => exec_currentCache_of_some rfl other, hcache, ?_⟩
    have hlt : ((opened before settings trace).expanderAt expanderId).cacheId <
        before.caches.length := hplaced.cacheId_lt hexpander
    exact ⟨fun hsame => absurd hsame (Nat.ne_of_lt hlt), nofun⟩
  | none =>
    have hnone : (opened before settings trace).defaultExpander = none := hexpander
    rw [exec_currentExpander_of_none hnone hsettings] at h
    obtain ⟨hstarted, rfl⟩ := Prod.mk.inj h
    obtain rfl := Except.ok.inj hstarted
    refine ⟨fun other => exec_currentExpander_of_some rfl other, settings, before.caches.length,
      hsettings, fun other => exec_currentCache_of_some rfl other, hcache, ?_⟩
    have hmade := expanderAt_served (opened before settings trace)
      ⟨.ofSettings settings, before.caches.length⟩
    exact ⟨fun _ => rfl, fun _ => congrArg ServedExpander.cacheId hmade⟩

/-- A default expander that is forgotten before a start is made anew by it, with the cache that the
start opens. -/
theorem expander_has_cache_after_forgetExpander :
    let e : Environment := ⟨.empty, .ok {}, Clock.zero, .documented⟩
    let history := [(e, Request.currentExpander), (e, .forgetExpander)]
    ∃ started after, exec run e (Services.replay {} history) = (.ok started, after) ∧
      started.expanderId = 1 ∧
      ∃ cacheId, exec currentCache e after = (.ok cacheId, after) ∧
        (after.expanderAt started.expanderId).cacheId = cacheId := by
  intro e history
  refine ⟨_, _, rfl, by decide +kernel, ?_⟩
  obtain ⟨-, settings, cacheId, -, hcache, -, hiff⟩ := expander_has_cache_iff history e _ _ rfl
  exact ⟨cacheId, hcache e, hiff.2 rfl⟩

/-- A default expander that is there before a start is returned by it, and keeps its cache. -/
theorem expander_lacks_cache :
    let e : Environment := ⟨.empty, .ok {}, Clock.zero, .documented⟩
    ∃ started after,
      exec run e (Services.replay {} [(e, .currentExpander)]) = (.ok started, after) ∧
      exec currentExpander e after = (.ok started.expanderId, after) ∧
      exec currentCache e after = (.ok 1, after) ∧
      (after.expanderAt started.expanderId).cacheId = 0 :=
  ⟨_, _, rfl, rfl, rfl, rfl⟩

end Startup

end SenderPolicy
