import Mathlib.Data.List.Basic
import SenderPolicy.Dns.Resolution

/-! Actions that use no cache, the effects that actions have and the failures that they end in.  An
action that uses no cache looks at neither the store nor the clock: what it answers and the events
that it adds follow from the environment alone.  Lookups and reports are such actions.  Effects are
the questions and the commands to a cache among the events, without what is logged and reported. -/

namespace SenderPolicy

def Event.isEffect : Event → Bool
  | .query _ | .cache _ _ => true
  | .log _ | .report _ => false

/-- From one state to another, events are added whose effects are these. -/
def Adds (effects : List Event) (s after : State) : Prop :=
  ∃ added, after.trace = s.trace ++ added ∧ added.filter Event.isEffect = effects

theorem Adds.refl (s : State) : Adds [] s s := ⟨[], by simp, rfl⟩

theorem Adds.trans {effects others : List Event} {s middle after : State}
    (hfirst : Adds effects s middle) (hsecond : Adds others middle after) :
    Adds (effects ++ others) s after := by
  obtain ⟨added, htrace, rfl⟩ := hfirst
  obtain ⟨later, hafter, rfl⟩ := hsecond
  refine ⟨added ++ later, ?_, List.filter_append added later⟩
  rw [hafter, htrace, List.append_assoc]

/-! ### Questions for pointers -/

namespace Event

/-- The name whose pointers an event asks for, if it does. -/
def pointerAsked? : Event → Option Text
  | .query ⟨.pointer, name⟩ => some name
  | _ => none

/-- The names whose pointers are asked for among some events. -/
def pointersAsked (events : List Event) : List Text := events.filterMap pointerAsked?

/-- Every question for pointers is an effect. -/
theorem pointersAsked_filter_isEffect (events : List Event) :
    pointersAsked (events.filter isEffect) = pointersAsked events := by
  rw [pointersAsked, List.filterMap_filter]
  apply List.filterMap_congr
  intro event _
  cases event <;> simp [pointerAsked?, isEffect]

@[simp] theorem pointersAsked_append (events others : List Event) :
    pointersAsked (events ++ others) = pointersAsked events ++ pointersAsked others :=
  List.filterMap_append

theorem query_mem_of_pointersAsked {events : List Event} {name : Text}
    (h : name ∈ pointersAsked events) : .query ⟨.pointer, name⟩ ∈ events := by
  obtain ⟨event, hmem, hasked⟩ := List.mem_filterMap.1 h
  unfold pointerAsked? at hasked
  split at hasked
  · obtain rfl := Option.some.inj hasked
    exact hmem
  · cases hasked

end Event

/-- From one state to another, events are added that ask for the pointers of these names. -/
def Asks (names : List Text) (s after : State) : Prop :=
  ∃ added, after.trace = s.trace ++ added ∧ Event.pointersAsked added = names

theorem Asks.refl (s : State) : Asks [] s s := ⟨[], by simp, rfl⟩

theorem Asks.trans {names others : List Text} {s middle after : State}
    (hfirst : Asks names s middle) (hsecond : Asks others middle after) :
    Asks (names ++ others) s after := by
  obtain ⟨added, htrace, rfl⟩ := hfirst
  obtain ⟨later, hafter, rfl⟩ := hsecond
  refine ⟨added ++ later, ?_, Event.pointersAsked_append added later⟩
  rw [hafter, htrace, List.append_assoc]

theorem Asks.unique {names others : List Text} {s after : State} (h : Asks names s after)
    (hother : Asks others s after) : names = others := by
  obtain ⟨added, htrace, rfl⟩ := h
  obtain ⟨later, hlater, rfl⟩ := hother
  rw [List.append_cancel_left (htrace.symm.trans hlater)]

theorem Adds.asks {effects : List Event} {s after : State} (h : Adds effects s after) :
    Asks (Event.pointersAsked effects) s after := by
  obtain ⟨added, htrace, rfl⟩ := h
  exact ⟨added, htrace, (Event.pointersAsked_filter_isEffect added).symm⟩

namespace Action

variable {α β : Type}

/-- What an action answers on the empty state. -/
def answer (action : Action α) (e : Environment) : Except Failure α := (exec action e {}).1

/-- The events that an action adds to the empty trace. -/
def events (action : Action α) (e : Environment) : List Event := (exec action e {}).2.trace

/-- An action that uses no cache answers the same at every time and on every state, and it does
nothing to the state but to add its events. -/
def UsesNoCache (action : Action α) : Prop :=
  ∀ (e : Environment) (clock : Binary64) (s : State),
    exec action { e with clock } s = (action.answer e, ⟨s.store, s.trace ++ action.events e⟩)

theorem UsesNoCache.exec {action : Action α} (h : UsesNoCache action) (e : Environment)
    (s : State) : exec action e s = (action.answer e, ⟨s.store, s.trace ++ action.events e⟩) :=
  h e e.clock s

theorem UsesNoCache.answer_clock {action : Action α} (h : UsesNoCache action) (e : Environment)
    (clock : Binary64) : action.answer { e with clock } = action.answer e :=
  (congrArg Prod.fst (h e clock {})).trans rfl

/-- Any answer and events that follow from the environment will do. -/
theorem UsesNoCache.intro {action : Action α} (result : Environment → Except Failure α)
    (added : Environment → List Event)
    (h : ∀ (e : Environment) (clock : Binary64) (s : State),
      action.exec { e with clock } s = (result e, ⟨s.store, s.trace ++ added e⟩)) :
    UsesNoCache action := by
  intro e clock s
  have hstart := h e e.clock {}
  rw [h e clock s, answer, events, hstart, List.nil_append]

@[simp] theorem answer_pure (a : α) (e : Environment) : answer (pure a) e = .ok a := rfl

@[simp] theorem answer_record (event : Event) (e : Environment) :
    answer (record event) e = .ok () := rfl

theorem UsesNoCache.answer_bind {first : Action α} {next : α → Action β}
    (hfirst : UsesNoCache first) (hnext : ∀ a, UsesNoCache (next a)) (e : Environment) :
    answer (first >>= next) e = (first.answer e).bind fun a => (next a).answer e := by
  rw [answer, exec_bind, hfirst.exec]
  rcases first.answer e with failure | a
  · rfl
  · simp only [(hnext a).exec, Except.bind]

theorem usesNoCache_pure (a : α) : UsesNoCache (pure a : Action α) :=
  .intro (fun _ => .ok a) (fun _ => []) fun _ _ _ => by simp

theorem usesNoCache_throw (failure : Failure) : UsesNoCache (throw failure : Action α) :=
  .intro (fun _ => .error failure) (fun _ => []) fun _ _ _ => by simp

theorem usesNoCache_record (event : Event) : UsesNoCache (record event) :=
  .intro (fun _ => .ok ()) (fun _ => [event]) fun _ _ _ => rfl

theorem usesNoCache_log (component : Component) (level : LogLevel) (message : Text) :
    UsesNoCache (log component level message) :=
  usesNoCache_record _

theorem usesNoCache_processSettings : UsesNoCache processSettings :=
  .intro (fun e => e.settings.mapError .settings) (fun _ => []) fun _ _ _ => by
    rw [exec_processSettings, List.append_nil]

theorem UsesNoCache.bind {first : Action α} {next : α → Action β} (hfirst : UsesNoCache first)
    (hnext : ∀ a, UsesNoCache (next a)) : UsesNoCache (first >>= next) := by
  refine .intro (fun e => (first.answer e).bind fun a => (next a).answer e)
    (fun e => first.events e ++
      (first.answer e).toOption.elim [] fun a => (next a).events e) fun e clock s => ?_
  rw [exec_bind, hfirst e clock s]
  rcases first.answer e with failure | a
  · simp [Except.bind, Except.toOption]
  · simp only [(hnext a) e clock, Except.bind, Except.toOption, Option.elim_some,
      List.append_assoc]

/-- What is read may be used, unless that is the time. -/
theorem UsesNoCache.read_bind {next : Environment → Action α} (hnext : ∀ e, UsesNoCache (next e))
    (hclock : ∀ (e : Environment) (clock : Binary64), next { e with clock } = next e) :
    UsesNoCache (read >>= next) := by
  refine .intro (fun e => (next e).answer e) (fun e => (next e).events e) fun e clock s => ?_
  rw [exec_bind, exec_read]
  simp only [hclock, (hnext e) e clock]

theorem run_eq_ok {run : Except Failure α × State} {a : α} (h : run.1 = .ok a) :
    run = (.ok a, run.2) := Prod.ext h rfl

/-- Two actions in a row end well if the second does so after the first. -/
theorem exec_bind_eq_ok {first : Action α} {next : α → Action β} {e : Environment}
    {s last : State} {b : β} :
    exec (first >>= next) e s = (.ok b, last) ↔
      ∃ a after, exec first e s = (.ok a, after) ∧ exec (next a) e after = (.ok b, last) := by
  rw [exec_bind]
  rcases exec first e s with ⟨failure | a, after⟩
  · simp
  · simp

/-! ### Effects -/

def effects (action : Action α) (e : Environment) : List Event :=
  (action.events e).filter Event.isEffect

theorem UsesNoCache.adds {action : Action α} (h : UsesNoCache action) (e : Environment)
    (s : State) : Adds (action.effects e) s (action.exec e s).2 := by
  rw [h.exec]
  exact ⟨action.events e, rfl, rfl⟩

theorem UsesNoCache.effects_bind {first : Action α} {next : α → Action β}
    (hfirst : UsesNoCache first) (hnext : ∀ a, UsesNoCache (next a)) (e : Environment) :
    effects (first >>= next) e = first.effects e ++
      (match first.answer e with
        | .ok a => (next a).effects e
        | .error _ => []) := by
  rw [effects, events, exec_bind, hfirst.exec]
  cases first.answer e with
  | error failure => simp [effects]
  | ok a => simp [effects, (hnext a).exec]

theorem effects_bind_pure {first : Action α} (h : UsesNoCache first) (f : α → β)
    (e : Environment) : effects (first >>= fun a => pure (f a)) e = first.effects e := by
  rw [h.effects_bind fun _ => usesNoCache_pure _]
  cases first.answer e with
  | error failure => simp
  | ok a => exact List.append_nil _

/-- An action that uses no cache and has the same effects in every environment. -/
structure HasEffects (effects : List Event) (action : Action α) : Prop where
  usesNoCache : UsesNoCache action
  effects_eq : ∀ e, action.effects e = effects

theorem hasEffects_pure (a : α) : HasEffects [] (pure a : Action α) :=
  ⟨usesNoCache_pure a, fun _ => rfl⟩

theorem hasEffects_throw (failure : Failure) : HasEffects [] (throw failure : Action α) :=
  ⟨usesNoCache_throw failure, fun _ => rfl⟩

theorem hasEffects_query (question : Question) :
    HasEffects [.query question] (record (.query question)) :=
  ⟨usesNoCache_record _, fun _ => rfl⟩

theorem hasEffects_log (component : Component) (level : LogLevel) (message : Text) :
    HasEffects [] (log component level message) :=
  ⟨usesNoCache_log _ _ _, fun _ => rfl⟩

theorem hasEffects_report (report : Report) : HasEffects [] (record (.report report)) :=
  ⟨usesNoCache_record _, fun _ => rfl⟩

theorem hasEffects_processSettings : HasEffects [] processSettings := by
  refine ⟨usesNoCache_processSettings, ?_⟩
  intro e
  rw [effects, events, exec_processSettings]
  rfl

/-- What follows without any effect has no part in the effects. -/
theorem HasEffects.bind {effects : List Event} {first : Action α} {next : α → Action β}
    (hfirst : HasEffects effects first) (hnext : ∀ a, HasEffects [] (next a)) :
    HasEffects effects (first >>= next) := by
  refine ⟨hfirst.usesNoCache.bind fun a => (hnext a).usesNoCache, ?_⟩
  intro e
  rw [hfirst.usesNoCache.effects_bind fun a => (hnext a).usesNoCache, hfirst.effects_eq]
  cases first.answer e with
  | error failure => simp
  | ok a => simp [(hnext a).effects_eq]

theorem HasEffects.read_bind {effects : List Event} {next : Environment → Action α}
    (hnext : ∀ e, HasEffects effects (next e))
    (hclock : ∀ (e : Environment) (clock : Binary64), next { e with clock } = next e) :
    HasEffects effects (read >>= next) :=
  ⟨.read_bind (fun e => (hnext e).usesNoCache) hclock, fun e => (hnext e).effects_eq e⟩

theorem HasEffects.forM {f : α → Action PUnit} (h : ∀ a, HasEffects [] (f a)) (items : List α) :
    HasEffects [] (items.forM f) := by
  induction items with
  | nil => exact hasEffects_pure ()
  | cons a items ih => exact (h a).bind fun _ => ih

/-! ### Failures -/

/-- Every failure that an action ends in, on any state, satisfies `p`. -/
def FailsOnly (p : Failure → Prop) (e : Environment) (action : Action α) : Prop :=
  ∀ (s : State) (failure : Failure), (exec action e s).1 = .error failure → p failure

variable {p q : Failure → Prop} {e : Environment}

theorem failsOnly_pure (a : α) : FailsOnly p e (pure a : Action α) := fun _ _ h => by
  simp at h

theorem failsOnly_throw {failure : Failure} (h : p failure) :
    FailsOnly p e (throw failure : Action α) := fun _ _ he => by
  obtain rfl : failure = _ := by simpa using he
  exact h

theorem failsOnly_record (event : Event) : FailsOnly p e (record event) := fun _ _ h => by
  simp at h

/-- Where the settings of the process are not valid, the failure that says so satisfies `p`. -/
def CoversSettings (p : Failure → Prop) (e : Environment) : Prop :=
  ∀ faults, e.settings = .error faults → p (.settings faults)

theorem coversSettings_of_ok {settings : Settings} (h : e.settings = .ok settings) :
    CoversSettings p e := by
  intro faults hfaults
  rw [h] at hfaults
  cases hfaults

theorem failsOnly_processSettings (h : CoversSettings p e) : FailsOnly p e processSettings := by
  intro s failure he
  rw [exec_processSettings] at he
  cases hsettings : e.settings with
  | ok settings =>
    rw [hsettings] at he
    cases he
  | error faults =>
    rw [hsettings] at he
    obtain rfl := Except.error.inj he
    exact h faults hsettings

theorem FailsOnly.mono {action : Action α} (h : FailsOnly p e action)
    (hpq : ∀ failure, p failure → q failure) : FailsOnly q e action :=
  fun s failure he => hpq failure (h s failure he)

/-- An action that never fails has an answer. -/
theorem exists_answer_of_failsOnly {action : Action α}
    (h : FailsOnly (fun _ => False) e action) : ∃ a, action.answer e = .ok a := by
  cases hanswer : action.answer e with
  | ok a => exact ⟨a, rfl⟩
  | error failure => exact (h {} failure hanswer).elim

theorem FailsOnly.bind {first : Action α} {next : α → Action β} (hfirst : FailsOnly p e first)
    (hnext : ∀ a, FailsOnly p e (next a)) : FailsOnly p e (first >>= next) := by
  intro s failure h
  rw [exec_bind] at h
  rcases hf : exec first e s with ⟨failed | a, after⟩
  · obtain rfl : failed = failure := by simpa [hf] using h
    exact hfirst s failed (by rw [hf])
  · rw [hf] at h
    exact hnext a after failure h

theorem FailsOnly.read_bind {next : Environment → Action α} (h : FailsOnly p e (next e)) :
    FailsOnly p e (read >>= next) := by
  intro s failure he
  rw [exec_bind, exec_read] at he
  exact h s failure he

theorem FailsOnly.tryCatch {action : Action α} {handler : Failure → Action α}
    (h : FailsOnly p e action) (hhandler : ∀ failure, p failure → FailsOnly q e (handler failure)) :
    FailsOnly q e (tryCatch action handler) := by
  intro s failure he
  rw [exec_tryCatch] at he
  rcases hf : exec action e s with ⟨failed | a, after⟩
  · rw [hf] at he
    exact hhandler failed (h s failed (by rw [hf])) after failure he
  · simp [hf] at he

theorem FailsOnly.forM {f : α → Action PUnit} (h : ∀ a, FailsOnly p e (f a)) (items : List α) :
    FailsOnly p e (items.forM f) := by
  induction items with
  | nil => exact failsOnly_pure ()
  | cons a items ih => exact (h a).bind fun _ => ih

theorem FailsOnly.mapM {f : α → Action β} {items : List α} (h : ∀ a ∈ items, FailsOnly p e (f a)) :
    FailsOnly p e (items.mapM f) := by
  induction items with
  | nil => exact failsOnly_pure []
  | cons a items ih =>
    rw [List.mapM_cons]
    refine (h a (by simp)).bind fun b => ?_
    exact (ih fun c hc => h c (List.mem_cons_of_mem _ hc)).bind fun _ => failsOnly_pure _

end Action

end SenderPolicy
