import SenderPolicy.Proofs.ValidatedName.Confirmation

/-! The effects of a call for the preferred name.  It asks the cache, and where it finds nothing
there it asks for the pointers of the client and then for the addresses of the names that it
follows, one question for each; and what it chooses it sets in the cache. -/

namespace SenderPolicy

open SenderPolicy.Action

namespace ValidatedName

variable {e : Environment} {process : Settings} {tuning : Tuning} {cache : Cache}
  {client : Address} {name domain : Text} {found : List Text} {s : State} {n : Int}

/-! ### Confirmation -/

theorem exists_answer_isConfirmed (he : e.settings = .ok process) (client : Address)
    (name : Text) : ∃ b, (isConfirmed client name).answer e = .ok b :=
  exists_answer_of_failsOnly (failsOnly_isConfirmed (coversSettings_of_ok he) client name)

/-- Each name is asked for, whether those before it are confirmed or not. -/
theorem effects_confirmed (he : e.settings = .ok process) (client : Address)
    (names : List Text) :
    (confirmed client names).effects e =
      names.map fun name => .query (Resolution.hostQuestion client name) := by
  induction names with
  | nil => rfl
  | cons name names ih =>
    obtain ⟨b, hb⟩ := exists_answer_isConfirmed he client name
    rw [confirmed, (usesNoCache_isConfirmed _ _).effects_bind
      fun _ => (usesNoCache_confirmed _ _).bind fun _ => usesNoCache_pure _,
      (hasEffects_isConfirmed _ _).effects_eq, hb]
    simp only [effects_bind_pure (usesNoCache_confirmed client names), ih]
    rfl

/-! ### Validated names -/

/-- The names that are confirmed among the first `n` of a list, without the dots at their ends. -/
def confirmedAmong (e : Environment) (client : Address) (n : Int) (found : List Text) :
    List Text :=
  ((found.take n.toNat).filter (confirms e client)).map Text.dropFinalDots

/-- The questions for the addresses of the first `n` names of a list. -/
def hostQueries (client : Address) (n : Int) (found : List Text) : List Event :=
  (found.take n.toNat).map fun name => .query (Resolution.hostQuestion client name)

@[simp] theorem confirmedAmong_nil (e : Environment) (client : Address) (n : Int) :
    confirmedAmong e client n [] = [] := by
  simp [confirmedAmong]

@[simp] theorem hostQueries_nil (client : Address) (n : Int) : hostQueries client n [] = [] := by
  simp [hostQueries]

theorem names_of_pointers_error (tuning : Tuning) {failure : Failure}
    (hname : client.pointerName? = some name)
    (hpointers : (Resolution.pointers name).answer e = .error failure) :
    (names tuning client).answer e = .error failure ∧
      (names tuning client).effects e = [.query ⟨.pointer, name⟩] := by
  constructor
  · rw [answer_names hname, hpointers]
    rfl
  · rw [names_of_pointerName hname, (Resolution.usesNoCache_pointers name).effects_bind
      fun _ => usesNoCache_confirmFollowed _ _ _, hpointers,
      (Resolution.hasEffects_pointers name).effects_eq]
    rfl

theorem names_of_pointers_ok (he : e.settings = .ok process)
    (hname : client.pointerName? = some name) (hcount : tuning.maxPointerNames = .integer n)
    (hn : 0 ≤ n) (hpointers : (Resolution.pointers name).answer e = .ok found) :
    (names tuning client).answer e = .ok (confirmedAmong e client n found) ∧
      (names tuning client).effects e =
        .query ⟨.pointer, name⟩ :: hostQueries client n found := by
  have hfollowed : confirmFollowed tuning client found = confirmed client (found.take n.toNat) := by
    rw [confirmFollowed, pointerCount?_of_integer hcount]
    simp only [followed_of_nonneg hn]
  constructor
  · have hanswer : ∀ name ∈ found.take n.toNat, ∃ b, (isConfirmed client name).answer e = .ok b :=
      fun name _ => exists_answer_isConfirmed he client name
    rw [names_of_pointerName hname, (Resolution.usesNoCache_pointers name).answer_bind
      fun _ => usesNoCache_confirmFollowed _ _ _, hpointers]
    simp only [Except.bind, hfollowed, answer_confirmed hanswer, confirmedAmong]
  · rw [names_of_pointerName hname, (Resolution.usesNoCache_pointers name).effects_bind
      fun _ => usesNoCache_confirmFollowed _ _ _, hpointers,
      (Resolution.hasEffects_pointers name).effects_eq]
    simp only [hfollowed, effects_confirmed he]
    rfl

/-! ### The preferred name -/

theorem adds_set (cache : Cache) (key value : Text) (ttl : Value) (e : Environment) (s : State) :
    Adds [.cache cache.backend (.set (cache.space ++ key) value ttl)] s
      (exec (cache.set key value ttl true) e s).2 := by
  unfold Cache.set
  simp only [exec_bind, Backend.exec_set]
  rcases cache.backend.stored e s.store (cache.space ++ key) value ttl with ⟨failure | _, after⟩
  · exact ⟨_, rfl, rfl⟩
  · exact ⟨_, List.append_assoc _ _ _, rfl⟩

theorem effects_fresh (tuning : Tuning) (client : Address) (domain : Text) (e : Environment) :
    (fresh tuning client domain).effects e = (names tuning client).effects e :=
  effects_bind_pure (usesNoCache_names tuning client) _ e

/-- What is set in the cache where nothing was found in it: the name that is chosen, if there is
one. -/
def renewals (tuning : Tuning) (cache : Cache) (client : Address) (domain : Text)
    (e : Environment) : List Event :=
  match (fresh tuning client domain).answer e with
  | .error _ => []
  | .ok text =>
    [.cache cache.backend (.set (storeKey cache client domain) text tuning.pointerCacheTtl)]

theorem adds_renew (tuning : Tuning) (cache : Cache) (client : Address) (domain : Text)
    (e : Environment) (s : State) :
    Adds ((names tuning client).effects e ++ renewals tuning cache client domain e) s
      (exec (renew tuning cache client domain) e s).2 := by
  have hfresh := (usesNoCache_fresh tuning client domain).adds e s
  rw [effects_fresh, (usesNoCache_fresh _ _ _).exec] at hfresh
  rw [renew, renewals, exec_bind, (usesNoCache_fresh _ _ _).exec]
  cases (fresh tuning client domain).answer e with
  | error failure =>
    rw [List.append_nil]
    exact hfresh
  | ok text =>
    have hset := adds_set cache (cacheKey client domain) text tuning.pointerCacheTtl e
      ⟨s.store, s.trace ++ (fresh tuning client domain).events e⟩
    have hboth := hfresh.trans hset
    simp only [exec_bind]
    generalize exec (cache.set _ _ _ _) e _ = r at hboth
    obtain ⟨_ | _, after⟩ := r <;> exact hboth

/-- The cache is asked, then the search for the names has its effects, and then its choice is set
in the cache. -/
theorem adds_preferred_of_miss (tuning : Tuning)
    (h : IsMissing cache e s.store client domain) :
    Adds (.cache cache.backend (.get (storeKey cache client domain)) ::
        ((names tuning client).effects e ++ renewals tuning cache client domain e)) s
      (exec (preferred tuning cache client domain) e s).2 := by
  rw [exec_preferred_of_miss h]
  have hget : Adds [.cache cache.backend (.get (storeKey cache client domain))] s
      { s with trace := s.trace ++
        [.cache cache.backend (.get (storeKey cache client domain))] } := ⟨_, rfl, rfl⟩
  exact hget.trans (adds_renew tuning cache client domain e _)

/-! ### Questions for pointers -/

/-- Confirmation asks for addresses only. -/
theorem pointersAsked_confirmed (client : Address) (names : List Text) (e : Environment) :
    Event.pointersAsked ((confirmed client names).effects e) = [] := by
  have hhost (name : Text) :
      Event.pointersAsked [.query (Resolution.hostQuestion client name)] = [] := by
    cases client <;> rfl
  induction names with
  | nil => rfl
  | cons name names ih =>
    have hlater (found : Bool) : UsesNoCache (confirmed client names >>= fun later =>
        pure (if found then name.dropFinalDots :: later else later)) :=
      (usesNoCache_confirmed client names).bind fun _ => usesNoCache_pure _
    rw [confirmed, (usesNoCache_isConfirmed client name).effects_bind hlater,
      (hasEffects_isConfirmed client name).effects_eq, Event.pointersAsked_append, hhost]
    cases (isConfirmed client name).answer e with
    | error failure => rfl
    | ok found => simp only [effects_bind_pure (usesNoCache_confirmed client names), ih,
        List.append_nil]

theorem pointersAsked_confirmFollowed (tuning : Tuning) (client : Address) (found : List Text)
    (e : Environment) :
    Event.pointersAsked ((confirmFollowed tuning client found).effects e) = [] := by
  unfold confirmFollowed
  split
  · exact pointersAsked_confirmed client _ e
  · rw [(hasEffects_throw _).effects_eq]
    rfl

/-- The validated names are looked up with one question for pointers. -/
theorem pointersAsked_names (tuning : Tuning) (client : Address) (e : Environment) :
    Event.pointersAsked ((names tuning client).effects e) = client.pointerName?.toList := by
  cases hname : client.pointerName? with
  | none =>
    rw [names_of_no_pointerName tuning hname, (hasEffects_throw _).effects_eq]
    rfl
  | some name =>
    rw [names_of_pointerName hname, (Resolution.usesNoCache_pointers name).effects_bind
      fun _ => usesNoCache_confirmFollowed _ _ _, (Resolution.hasEffects_pointers name).effects_eq,
      Event.pointersAsked_append]
    cases (Resolution.pointers name).answer e with
    | error failure => rfl
    | ok found =>
      rw [pointersAsked_confirmFollowed]
      rfl

/-- Where nothing is cached, a call asks for the pointers of the client. -/
theorem asks_preferred_of_miss (tuning : Tuning)
    (h : IsMissing cache e s.store client domain) :
    Asks client.pointerName?.toList s (exec (preferred tuning cache client domain) e s).2 := by
  have hget : Event.pointersAsked
      [.cache cache.backend (.get (storeKey cache client domain))] = [] := rfl
  have hrenewals : Event.pointersAsked (renewals tuning cache client domain e) = [] := by
    unfold renewals
    split <;> rfl
  have hasks := (adds_preferred_of_miss tuning h).asks
  rwa [← List.singleton_append, Event.pointersAsked_append, Event.pointersAsked_append, hget,
    hrenewals, List.nil_append, List.append_nil, pointersAsked_names] at hasks

end ValidatedName

end SenderPolicy
