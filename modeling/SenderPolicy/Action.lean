import SenderPolicy.Failure

/-! Actions: computations that look up names, use a cache, write logs and report failures.  What an
action depends on is its environment; what it changes is the store of the cache and the trace of its
events, which is kept when the action fails. -/

namespace SenderPolicy

/-- The parts of the library that write logs. -/
inductive Component
  | expander
  | pointers
  | cache
  | resolver
  | reporting
  | app
  deriving DecidableEq, Repr

def Component.name : Component → Text
  | .expander => "spf_macro.macro.expander"
  | .pointers => "spf_macro.core.ptr"
  | .cache => "spf_macro.core.cache"
  | .resolver => "spf_macro.dns.resolver"
  | .reporting => "spf_macro.utils.exceptions"
  | .app => "spf_macro.app"

structure LogEntry where
  component : Component
  level : LogLevel
  message : Text
  deriving DecidableEq, Repr

/-- A command to the store of a cache, by the stored key. -/
inductive CacheCommand
  | connect
  | get (key : Text)
  | set (key value : Text) (ttl : Value)
  | delete (key : Text)

/-- What reaches the service to which failures are reported. -/
inductive Report
  | start (dsn environment : Text) (sampleRate : Binary64)
  | extra (key : Text) (value : Value)
  | capture (kind : Kind) (message : Text)

/-- Something that an action does to the outside. -/
inductive Event
  | query (question : Question)
  | log (entry : LogEntry)
  | cache (backend : Backend) (command : CacheCommand)
  | report (report : Report)

/-- What an action depends on: the data of the domain name system, the settings of the process, or
the faults in them, the time of the cache, and the Redis database that a cache may be kept in. -/
structure Environment where
  zone : Zone
  settings : Except (List Settings.Fault) Settings
  clock : Binary64
  redis : Redis

/-- What an action changes: the store of the cache, and the events so far. -/
structure State where
  store : Store := []
  trace : List Event := []

def Environment.advance (e : Environment) (seconds : Value) : Except DurationFault Environment :=
  (Clock.after e.clock seconds).map fun clock => { e with clock }

theorem Environment.advance_eq_ok {e later : Environment} {seconds : Value}
    (h : e.advance seconds = .ok later) :
    ∃ duration, later = { e with clock := e.clock + duration } := by
  unfold Environment.advance Clock.after at h
  cases hduration : Clock.seconds seconds with
  | error fault => rw [hduration] at h; cases h
  | ok duration =>
    rw [hduration] at h
    exact ⟨duration, (Except.ok.inj h).symm⟩

def State.elapse (s : State) (before now : Binary64) : State :=
  { s with store := s.store.elapse before now }

/-- A computation that may fail. -/
abbrev Action := ReaderT Environment (ExceptT Failure (StateM State))

namespace Action

/-- The result of an action, and the state after it. -/
def exec {α : Type} (action : Action α) (environment : Environment) (state : State) :
    Except Failure α × State :=
  (action.run environment).run.run state

@[simp] theorem exec_pure {α : Type} (a : α) (e : Environment) (s : State) :
    exec (pure a) e s = (.ok a, s) := rfl

@[simp] theorem exec_throw {α : Type} (failure : Failure) (e : Environment) (s : State) :
    exec (throw failure : Action α) e s = (.error failure, s) := rfl

/-- The second of two actions runs on the state after the first, unless the first fails. -/
theorem exec_bind {α β : Type} (first : Action α) (next : α → Action β) (e : Environment)
    (s : State) :
    exec (first >>= next) e s =
      match exec first e s with
      | (.ok a, s) => exec (next a) e s
      | (.error failure, s) => (.error failure, s) := by
  show (match exec first e s with
    | (result, s) => (ExceptT.bindCont (fun a => (next a).run e) result).run s) = _
  rcases exec first e s with ⟨_ | _, _⟩ <;> rfl

/-- A failure is handled on the state that it leaves. -/
theorem exec_tryCatch {α : Type} (action : Action α) (handler : Failure → Action α)
    (e : Environment) (s : State) :
    exec (tryCatch action handler) e s =
      match exec action e s with
      | (.ok a, s) => (.ok a, s)
      | (.error failure, s) => exec (handler failure) e s := by
  simp only [exec, tryCatch, tryCatchThe, MonadExceptOf.tryCatch, ExceptT.tryCatch, ExceptT.mk,
    ReaderT.run, ExceptT.run, StateT.run, bind, StateT.bind]
  rcases action e s with ⟨_ | _, _⟩ <;> rfl

@[simp] theorem exec_read (e : Environment) (s : State) : exec read e s = (.ok e, s) := rfl

@[simp] theorem exec_get (e : Environment) (s : State) :
    exec (getThe State) e s = (.ok s, s) := rfl

@[simp] theorem exec_modify (f : State → State) (e : Environment) (s : State) :
    exec (modify f) e s = (.ok (), f s) := rfl

/-- Does with the store what `f` says. -/
def onStore {α : Type} (f : Environment → Store → Except Failure α × Store) : Action α := do
  let (answer, store) := f (← read) (← getThe State).store
  modify fun s => { s with store }
  match answer with
  | .ok a => return a
  | .error failure => throw failure

@[simp] theorem exec_onStore {α : Type} (f : Environment → Store → Except Failure α × Store)
    (e : Environment) (s : State) :
    exec (onStore f) e s = ((f e s.store).1, { s with store := (f e s.store).2 }) := by
  simp only [onStore, exec_bind, exec_read, exec_get, exec_modify]
  cases (f e s.store).1 <;> rfl

def record (event : Event) : Action Unit :=
  modify fun s => { s with trace := s.trace ++ [event] }

@[simp] theorem exec_record (event : Event) (e : Environment) (s : State) :
    exec (record event) e s = (.ok (), { s with trace := s.trace ++ [event] }) := rfl

def log (component : Component) (level : LogLevel) (message : Text) : Action Unit :=
  record (.log ⟨component, level, message⟩)

@[simp] theorem exec_log (component : Component) (level : LogLevel) (message : Text)
    (e : Environment) (s : State) :
    exec (log component level message) e s =
      (.ok (), { s with trace := s.trace ++ [.log ⟨component, level, message⟩] }) := rfl

/-- The settings of the process; an action that needs them fails where they are not valid. -/
def processSettings : Action Settings := do
  match (← read).settings with
  | .ok settings => pure settings
  | .error faults => throw (.settings faults)

theorem exec_processSettings (e : Environment) (s : State) :
    exec processSettings e s = (e.settings.mapError .settings, s) := by
  rcases e with ⟨_, _ | _, _, _⟩ <;> rfl

end Action

end SenderPolicy
