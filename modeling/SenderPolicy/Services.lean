import SenderPolicy.Expansion

/-! The services of a process: the caches that have been opened and the expanders that have been
made, with a default of each.  A default is made at its first use, from the process settings, and a
default expander keeps the cache that was the default when it was made. -/

namespace SenderPolicy

structure OpenCache where
  cache : Cache
  store : Store := []

/-- An expander: its tuning, and the place of its cache among those that have been opened. -/
structure ServedExpander where
  tuning : Tuning
  cacheId : Nat

/-- The services of a process, and the events so far. -/
structure Services where
  caches : List OpenCache := []
  expanders : List ServedExpander := []
  defaultCache : Option Nat := none
  defaultExpander : Option Nat := none
  trace : List Event := []

abbrev ServiceAction := ReaderT Environment (ExceptT Failure (StateM Services))

namespace ServiceAction

/-- The result of an action, and the services after it. -/
def exec {α : Type} (action : ServiceAction α) (environment : Environment) (services : Services) :
    Except Failure α × Services :=
  (action.run environment).run.run services

@[simp] theorem exec_pure {α : Type} (a : α) (e : Environment) (s : Services) :
    exec (pure a) e s = (.ok a, s) := rfl

@[simp] theorem exec_throw {α : Type} (failure : Failure) (e : Environment) (s : Services) :
    exec (throw failure : ServiceAction α) e s = (.error failure, s) := rfl

/-- The second of two actions runs on the services after the first, unless the first fails. -/
theorem exec_bind {α β : Type} (first : ServiceAction α) (next : α → ServiceAction β)
    (e : Environment) (s : Services) :
    exec (first >>= next) e s =
      match exec first e s with
      | (.ok a, s) => exec (next a) e s
      | (.error failure, s) => (.error failure, s) := by
  show (match exec first e s with
    | (result, s) => (ExceptT.bindCont (fun a => (next a).run e) result).run s) = _
  rcases exec first e s with ⟨_ | _, _⟩ <;> rfl

@[simp] theorem exec_get (e : Environment) (s : Services) :
    exec (getThe Services) e s = (.ok s, s) := rfl

@[simp] theorem exec_modify (f : Services → Services) (e : Environment) (s : Services) :
    exec (modify f) e s = (.ok (), f s) := rfl

end ServiceAction

namespace Services

/-- Runs an action on the store `store`, and hands over the store after it. -/
def runOn {α : Type} (store : Store) (keep : Store → Services → Services) (action : Action α) :
    ServiceAction α := do
  let before ← getThe Services
  let (result, after) := action.exec (← read) ⟨store, before.trace⟩
  set { keep after.store before with trace := after.trace }
  match result with
  | .ok a => return a
  | .error failure => throw failure

def withoutCache {α : Type} (action : Action α) : ServiceAction α := runOn [] (fun _ s => s) action

/-- The cache at a place.  There is always one at the places that services hand out. -/
def cacheAt (services : Services) (cacheId : Nat) : OpenCache :=
  services.caches.getD cacheId ⟨⟨.memory, []⟩, []⟩

def putStore (services : Services) (cacheId : Nat) (store : Store) : Services :=
  { services with caches := services.caches.modify cacheId fun c => { c with store } }

def elapse (services : Services) (before now : Binary64) : Services :=
  let elapsed (c : OpenCache) := { c with store := c.store.elapse before now }
  { services with caches := services.caches.map elapsed }

def withCache {α : Type} (cacheId : Nat) (action : Cache → Action α) : ServiceAction α := do
  let opened := (← getThe Services).cacheAt cacheId
  runOn opened.store (fun store s => s.putStore cacheId store) (action opened.cache)

def openCache (cache : Cache) : ServiceAction Nat := do
  let services ← getThe Services
  let opened : OpenCache := { cache }
  set { services with
    caches := services.caches ++ [opened]
    trace := services.trace ++ cache.opening }
  return services.caches.length

def addExpander (expander : ServedExpander) : ServiceAction Nat := do
  let services ← getThe Services
  set { services with expanders := services.expanders ++ [expander] }
  return services.expanders.length

def setDefaultCache (cacheId : Option Nat) : ServiceAction Unit :=
  modify fun s => { s with defaultCache := cacheId }

def setDefaultExpander (expanderId : Option Nat) : ServiceAction Unit :=
  modify fun s => { s with defaultExpander := expanderId }

/-- The place of the default cache, which is opened if there is none. -/
def currentCache : ServiceAction Nat := do
  match (← getThe Services).defaultCache with
  | some cacheId => return cacheId
  | none =>
    let cacheId ← openCache (.ofSettings (← withoutCache Action.processSettings))
    setDefaultCache (some cacheId)
    return cacheId

/-- Opens the cache of some settings as the default. -/
def replaceCache (settings : Settings) : ServiceAction Nat := do
  let cacheId ← openCache (.ofSettings settings)
  setDefaultCache (some cacheId)
  return cacheId

/-- The place of the default expander, which is made if there is none. -/
def currentExpander : ServiceAction Nat := do
  match (← getThe Services).defaultExpander with
  | some expanderId => return expanderId
  | none =>
    let settings ← withoutCache Action.processSettings
    let cacheId ← currentCache
    let expanderId ← addExpander { tuning := .ofSettings settings, cacheId }
    setDefaultExpander (some expanderId)
    return expanderId

/-- The expander at a place.  There is always one at the places that services hand out. -/
def expanderAt (services : Services) (expanderId : Nat) : ServedExpander :=
  services.expanders.getD expanderId ⟨.ofSettings {}, 0⟩

def withExpander {α : Type} (expanderId : Nat) (action : Expander → Action α) :
    ServiceAction α := do
  let expander := (← getThe Services).expanderAt expanderId
  withCache expander.cacheId fun cache => action ⟨expander.tuning, cache⟩

def changeSetting (expanderId : Nat) (name : Text) (value : Value) : ServiceAction Unit := do
  let services ← getThe Services
  match (services.expanderAt expanderId).tuning.change name value with
  | .ok tuning =>
    let edit (e : ServedExpander) := { e with tuning }
    set { services with expanders := services.expanders.modify expanderId edit }
  | .error fault => throw (.tuning fault)

/-- The text of a macro string by the default expander, which may use every letter. -/
def expandByDefault (session : Session) (value : Text) : ServiceAction Text := do
  withExpander (← currentExpander) fun x => x.expand session value Letter.allChars

end Services

end SenderPolicy
