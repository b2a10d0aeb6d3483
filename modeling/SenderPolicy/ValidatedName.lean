import SenderPolicy.Cache.Manager
import SenderPolicy.Dns.Resolution

/-! The validated name of a client.  A pointer of the client's address is validated when the name
that it gives has that address itself.  Of the validated names, the current domain is preferred,
then any name below it, then the first one. -/

namespace SenderPolicy.ValidatedName

open SenderPolicy.Action

/-- The name of a client that has no validated name. -/
def unknown : Text := "unknown"

/-- The first name of a list that satisfies the strongest condition which any of them does: to be
`domain` in any case, to lie below it, or none. -/
def choose (names : List Text) (domain : Text) : Text :=
  let target := domain.lower.dropFinalDots
  match names.find? (·.lower == target) with
  | some name => name
  | none => match names.find? fun name => (.scalar '.' :: target).isSuffixOf name.lower with
    | some name => name
    | none => names.headD unknown

/-- The names that are followed: the first `count`, or all but the last `-count`; all of them, if
there is no bound. -/
def followed (count? : Option Int) (names : List Text) : List Text :=
  match count? with
  | none => names
  | some count =>
    if 0 ≤ count then names.take count.toNat else names.take (names.length - count.natAbs)

@[simp] theorem followed_none (names : List Text) : followed none names = names := rfl

@[simp] theorem followed_natCast (n : Nat) (names : List Text) :
    followed (some (n : Int)) names = names.take n := by
  simp [followed]

/-- Whether one of the addresses of `name` is `client`.  Texts that are no address are logged, up to
the first address that is the client's. -/
def isAmong (client : Address) (name : Text) : List Text → Action Bool
  | [] => pure false
  | text :: texts =>
    match Address.ofText? text with
    | some address => if address = client then pure true else isAmong client name texts
    | none => do
      log .pointers .debug ("Ignoring bad address " ++ text.quoted ++ " for " ++ name)
      isAmong client name texts

def isConfirmed (client : Address) (name : Text) : Action Bool := do
  let (texts, _) ← match client with
    | .v4 _ => Resolution.ipv4Hosts name
    | .v6 _ _ => Resolution.ipv6Hosts name
  isAmong client name texts

/-- The names that have the address `client`, in order and without the dots at their ends. -/
def confirmed (client : Address) : List Text → Action (List Text)
  | [] => pure []
  | name :: names => do
    let found ← isConfirmed client name
    let later ← confirmed client names
    return if found then name.dropFinalDots :: later else later

/-- The validated names of a client.  The bound on their number is looked at after the lookup of
the pointers. -/
def names (tuning : Tuning) (client : Address) : Action (List Text) := do
  match client.pointerName? with
  | none => throw .noPointerName
  | some pointerName =>
    let found ← Resolution.pointers pointerName
    match tuning.pointerCount? with
    | .ok count? => confirmed client (followed count? found)
    | .error fault => throw (.tuning fault)

def cacheKey (client : Address) (domain : Text) : Text :=
  Cache.key ["ptr", client.toText, domain.lower]

/-- The preferred name of a client for `domain`, from the cache if it is there. -/
def preferred (tuning : Tuning) (cache : Cache) (client : Address) (domain : Text) :
    Action Text := do
  let key := cacheKey client domain
  match ← cache.get key with
  | some (c :: cached) => return c :: cached
  | _ =>
    let name := choose (← names tuning client) domain
    cache.set key name tuning.pointerCacheTtl true
    return name

end SenderPolicy.ValidatedName
