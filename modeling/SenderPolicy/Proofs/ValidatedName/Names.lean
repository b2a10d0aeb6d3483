import SenderPolicy.Proofs.Cache.Effects
import SenderPolicy.Proofs.Cache.Redis
import SenderPolicy.Proofs.Resolution
import SenderPolicy.ValidatedName

/-! The validated names of a client follow from the environment alone.  A call for the preferred
one returns what is cached, or else chooses one anew and stores it; nothing else is done to the
store. -/

namespace SenderPolicy.ValidatedName

open SenderPolicy.Action

variable {e : Environment} {settings : Settings} {p : Failure → Prop} {tuning : Tuning}
  {cache : Cache} {client : Address} {name domain text : Text}
  {names : List Text} {deadline : Option Binary64} {s : State}

/-! ### Confirmation -/

/-- The lookup of the addresses of `name` finds one that reads as `client`. -/
def HasAddress (e : Environment) (client : Address) (name : Text) : Prop :=
  ∃ texts ttl, (Resolution.hosts client name).answer e = .ok (texts, ttl) ∧
    ∃ text ∈ texts, Address.ofText? text = some client

theorem isConfirmed_eq (client : Address) (name : Text) :
    isConfirmed client name = Resolution.hosts client name >>= fun found =>
      isAmong client name found.1 := by
  cases client <;> rfl

theorem hasEffects_isAmong (client : Address) (name : Text) (texts : List Text) :
    HasEffects [] (isAmong client name texts) := by
  induction texts with
  | nil => exact hasEffects_pure _
  | cons text texts ih =>
    rw [isAmong]
    split
    · split
      · exact hasEffects_pure _
      · exact ih
    · exact (hasEffects_log _ _ _).bind fun _ => ih

theorem usesNoCache_isAmong (client : Address) (name : Text) (texts : List Text) :
    UsesNoCache (isAmong client name texts) :=
  (hasEffects_isAmong client name texts).usesNoCache

theorem answer_isAmong (client : Address) (name : Text) (texts : List Text) :
    (isAmong client name texts).answer e =
      .ok (texts.any fun text => Address.ofText? text == some client) := by
  induction texts with
  | nil => rfl
  | cons text texts ih =>
    rw [isAmong, List.any_cons]
    split
    · next address h =>
      by_cases hclient : address = client
      · simp [h, hclient]
      · rw [if_neg hclient, ih]
        simp [h, hclient]
    · next h =>
      rw [(usesNoCache_log _ _ _).answer_bind fun _ => usesNoCache_isAmong _ _ _, ih]
      simp [h, Except.bind, log]

theorem hasEffects_isConfirmed (client : Address) (name : Text) :
    HasEffects [.query (Resolution.hostQuestion client name)] (isConfirmed client name) := by
  rw [isConfirmed_eq]
  exact (Resolution.hasEffects_hosts client name).bind fun _ => hasEffects_isAmong _ _ _

theorem usesNoCache_isConfirmed (client : Address) (name : Text) :
    UsesNoCache (isConfirmed client name) :=
  (hasEffects_isConfirmed client name).usesNoCache

theorem failsOnly_isAmong (client : Address) (name : Text) (texts : List Text) :
    FailsOnly p e (isAmong client name texts) := by
  intro s failure h
  rw [(usesNoCache_isAmong client name texts).exec, answer_isAmong] at h
  cases h

theorem failsOnly_isConfirmed (h : CoversSettings p e) (client : Address) (name : Text) :
    FailsOnly p e (isConfirmed client name) := by
  rw [isConfirmed_eq]
  exact (Resolution.failsOnly_hosts h _ _).bind fun _ => failsOnly_isAmong _ _ _

/-- Whether `name` is confirmed; a name whose addresses have no answer is not. -/
def confirms (e : Environment) (client : Address) (name : Text) : Bool :=
  ((isConfirmed client name).answer e).toOption.getD false

theorem confirms_iff (client : Address) (name : Text) :
    confirms e client name ↔ HasAddress e client name := by
  rw [confirms, isConfirmed_eq, (Resolution.usesNoCache_hosts _ _).answer_bind
    fun _ => usesNoCache_isAmong _ _ _, HasAddress]
  rcases (Resolution.hosts client name).answer e with failure | ⟨texts, ttl⟩
  · simp [Except.bind, Except.toOption]
  · simp [Except.bind, Except.toOption, answer_isAmong]

theorem usesNoCache_confirmed (client : Address) (names : List Text) :
    UsesNoCache (confirmed client names) := by
  induction names with
  | nil => exact usesNoCache_pure _
  | cons name names ih =>
    exact (usesNoCache_isConfirmed _ _).bind fun _ => ih.bind fun _ => usesNoCache_pure _

theorem failsOnly_confirmed (h : CoversSettings p e) (client : Address) (names : List Text) :
    FailsOnly p e (confirmed client names) := by
  induction names with
  | nil => exact failsOnly_pure _
  | cons name names ih =>
    exact (failsOnly_isConfirmed h _ _).bind fun _ => ih.bind fun _ => failsOnly_pure _

theorem answer_confirmed_cons (client : Address) (name : Text) (names : List Text) :
    (confirmed client (name :: names)).answer e =
      ((isConfirmed client name).answer e).bind fun found =>
        ((confirmed client names).answer e).map fun later =>
          if found then name.dropFinalDots :: later else later := by
  rw [confirmed, (usesNoCache_isConfirmed _ _).answer_bind
    fun _ => (usesNoCache_confirmed _ _).bind fun _ => usesNoCache_pure _]
  congr 1
  funext found
  rw [(usesNoCache_confirmed _ _).answer_bind fun _ => usesNoCache_pure _]
  cases (confirmed client names).answer e <;> rfl

/-- The names that are confirmed, where the addresses of each of them have an answer. -/
theorem answer_confirmed (h : ∀ name ∈ names, ∃ b, (isConfirmed client name).answer e = .ok b) :
    (confirmed client names).answer e =
      .ok ((names.filter (confirms e client)).map Text.dropFinalDots) := by
  induction names with
  | nil => rfl
  | cons name names ih =>
    obtain ⟨found, hfound⟩ := h name (by simp)
    have hconfirms : confirms e client name = found := by rw [confirms, hfound]; rfl
    rw [answer_confirmed_cons, hfound, ih fun n hn => h n (List.mem_cons_of_mem _ hn),
      List.filter_cons, hconfirms]
    cases found <;> rfl

theorem answer_confirmed_eq_ok {found : List Text}
    (h : (confirmed client names).answer e = .ok found) :
    found = (names.filter (confirms e client)).map Text.dropFinalDots := by
  induction names generalizing found with
  | nil => exact (Except.ok.inj h).symm
  | cons name names ih =>
    rw [answer_confirmed_cons] at h
    cases hname : (isConfirmed client name).answer e with
    | error failure => rw [hname] at h; cases h
    | ok b =>
      cases hlater : (confirmed client names).answer e with
      | error failure => rw [hname, hlater] at h; cases h
      | ok later =>
        rw [hname, hlater] at h
        have hconfirms : confirms e client name = b := by rw [confirms, hname]; rfl
        rw [List.filter_cons, hconfirms, ← Except.ok.inj h, ih hlater]
        cases b <;> rfl

/-! ### Validated names -/

/-- What is done with the pointers of a client that are found. -/
def confirmFollowed (tuning : Tuning) (client : Address) (found : List Text) :
    Action (List Text) :=
  match tuning.pointerCount? with
  | .ok count? => confirmed client (followed count? found)
  | .error fault => throw (.tuning fault)

theorem mem_of_mem_followed {count? : Option Int} (h : name ∈ followed count? names) :
    name ∈ names := by
  unfold followed at h
  split at h
  · exact h
  · split at h <;> exact List.mem_of_mem_take h

theorem names_of_pointerName (h : client.pointerName? = some name) :
    ValidatedName.names tuning client =
      Resolution.pointers name >>= confirmFollowed tuning client := by
  unfold ValidatedName.names
  rw [h]
  rfl

theorem names_of_no_pointerName (tuning : Tuning) (h : client.pointerName? = none) :
    ValidatedName.names tuning client = throw .noPointerName := by
  unfold ValidatedName.names
  rw [h]

theorem usesNoCache_confirmFollowed (tuning : Tuning) (client : Address) (found : List Text) :
    UsesNoCache (confirmFollowed tuning client found) := by
  unfold confirmFollowed
  split
  · exact usesNoCache_confirmed _ _
  · exact usesNoCache_throw _

theorem answer_confirmFollowed (tuning : Tuning) (client : Address) (found : List Text) :
    (confirmFollowed tuning client found).answer e =
      (tuning.pointerCount?.mapError Failure.tuning).bind fun count? =>
        (confirmed client (followed count? found)).answer e := by
  unfold confirmFollowed
  cases tuning.pointerCount? <;> rfl

theorem usesNoCache_names (tuning : Tuning) (client : Address) :
    UsesNoCache (ValidatedName.names tuning client) := by
  cases hname : client.pointerName? with
  | none =>
    rw [names_of_no_pointerName tuning hname]
    exact usesNoCache_throw _
  | some name =>
    rw [names_of_pointerName hname]
    exact (Resolution.usesNoCache_pointers name).bind fun _ => usesNoCache_confirmFollowed _ _ _

/-- The search for validated names fails for want of a name for the pointers, in the lookup of
these, for the number of them that are followed, or for the settings of the process. -/
theorem failsOnly_names (h : CoversSettings p e) (hp : ∀ error, p (.resolution error))
    (hname : client.pointerName? = none → p .noPointerName)
    (hcount : ∀ fault, tuning.pointerCount? = .error fault → p (.tuning fault)) :
    FailsOnly p e (ValidatedName.names tuning client) := by
  cases hpointer : client.pointerName? with
  | none =>
    rw [names_of_no_pointerName tuning hpointer]
    exact failsOnly_throw (hname hpointer)
  | some name =>
    rw [names_of_pointerName hpointer]
    refine (Resolution.failsOnly_pointers h hp name).bind fun found => ?_
    unfold confirmFollowed
    split
    · exact failsOnly_confirmed h _ _
    · next fault hfault => exact failsOnly_throw (hcount fault hfault)

theorem answer_names (h : client.pointerName? = some name) :
    (ValidatedName.names tuning client).answer e =
      ((Resolution.pointers name).answer e).bind fun found =>
        (tuning.pointerCount?.mapError Failure.tuning).bind fun count? =>
          (confirmed client (followed count? found)).answer e := by
  rw [names_of_pointerName h, (Resolution.usesNoCache_pointers name).answer_bind
    fun _ => usesNoCache_confirmFollowed _ _ _]
  simp only [answer_confirmFollowed]

/-- The validated names are the confirmed ones among the pointers that are followed. -/
theorem answer_names_eq_ok {found : List Text}
    (h : (ValidatedName.names tuning client).answer e = .ok found) :
    ∃ name pointers count?, client.pointerName? = some name ∧
      (Resolution.pointers name).answer e = .ok pointers ∧ tuning.pointerCount? = .ok count? ∧
      found = ((followed count? pointers).filter (confirms e client)).map Text.dropFinalDots := by
  cases hname : client.pointerName? with
  | none =>
    rw [names_of_no_pointerName tuning hname] at h
    cases h
  | some name =>
    rw [answer_names hname] at h
    cases hpointers : (Resolution.pointers name).answer e with
    | error failure => rw [hpointers] at h; cases h
    | ok pointers =>
      cases hcount : tuning.pointerCount? with
      | error fault => rw [hpointers, hcount] at h; cases h
      | ok count? =>
        rw [hpointers, hcount] at h
        exact ⟨name, pointers, count?, rfl, hpointers, rfl, answer_confirmed_eq_ok h⟩

/-! ### The choice -/

/-- The choice looks at the domain in lower case only. -/
theorem choose_congr {other : Text} (h : domain.lower = other.lower) (names : List Text) :
    choose names domain = choose names other := by
  unfold choose
  rw [h]

theorem choose_nil (domain : Text) : choose [] domain = unknown := rfl

theorem choose_mem (h : names ≠ []) (domain : Text) : choose names domain ∈ names := by
  unfold choose
  dsimp only
  split
  · next hname => exact List.mem_of_find?_eq_some hname
  · split
    · next hname => exact List.mem_of_find?_eq_some hname
    · obtain ⟨name, names, rfl⟩ := List.exists_cons_of_ne_nil h
      exact List.mem_cons_self

/-! ### The preferred name -/

/-- The preferred name of a client for `domain` by what lookups find now. -/
def fresh (tuning : Tuning) (client : Address) (domain : Text) : Action Text := do
  return choose (← ValidatedName.names tuning client) domain

theorem usesNoCache_fresh (tuning : Tuning) (client : Address) (domain : Text) :
    UsesNoCache (fresh tuning client domain) :=
  (usesNoCache_names _ _).bind fun _ => usesNoCache_pure _

theorem answer_fresh (tuning : Tuning) (client : Address) (domain : Text) :
    (fresh tuning client domain).answer e =
      ((ValidatedName.names tuning client).answer e).map (choose · domain) := by
  rw [fresh, (usesNoCache_names _ _).answer_bind fun _ => usesNoCache_pure _]
  cases (ValidatedName.names tuning client).answer e <;> rfl

theorem answer_fresh_eq_ok_iff :
    (fresh tuning client domain).answer e = .ok text ↔
      ∃ found, (ValidatedName.names tuning client).answer e = .ok found ∧
        text = choose found domain := by
  rw [answer_fresh]
  cases (ValidatedName.names tuning client).answer e with
  | error failure => simp [Except.map]
  | ok found => simp [Except.map, eq_comm]

theorem answer_fresh_congr {other : Text} (h : domain.lower = other.lower) (tuning : Tuning)
    (client : Address) :
    (fresh tuning client domain).answer e = (fresh tuning client other).answer e := by
  rw [answer_fresh, answer_fresh, funext fun names => choose_congr h names]

theorem preferred_congr {other : Text} (h : domain.lower = other.lower) (tuning : Tuning)
    (cache : Cache) (client : Address) :
    preferred tuning cache client domain = preferred tuning cache client other := by
  unfold preferred cacheKey
  simp only [h, choose_congr h]

/-- The key of the store under which the preferred name is cached. -/
def storeKey (cache : Cache) (client : Address) (domain : Text) : Text :=
  cache.space ++ cacheKey client domain

/-- The key looks at the domain in lower case only. -/
theorem storeKey_congr {other : Text} (h : domain.lower = other.lower) (cache : Cache)
    (client : Address) : storeKey cache client domain = storeKey cache client other := by
  rw [storeKey, storeKey, cacheKey, cacheKey, h]

/-- What the cache answers when it is asked for the preferred name. -/
def cachedName (cache : Cache) (e : Environment) (store : Store) (client : Address)
    (domain : Text) : Except Failure (Option Text) :=
  cache.backend.found e store (storeKey cache client domain)

/-- No name is cached, or the empty one, which does not count. -/
def IsMissing (cache : Cache) (e : Environment) (store : Store) (client : Address)
    (domain : Text) : Prop :=
  cachedName cache e store client domain = .ok none ∨
    cachedName cache e store client domain = .ok (some [])

/-- The cache finds a name, or it finds none that counts, or it fails. -/
theorem cachedName_cases (cache : Cache) (e : Environment) (store : Store) (client : Address)
    (domain : Text) :
    (∃ c cached, cachedName cache e store client domain = .ok (some (c :: cached))) ∨
      IsMissing cache e store client domain ∨
      ∃ failure, cachedName cache e store client domain = .error failure := by
  rcases h : cachedName cache e store client domain with failure | _ | _ | ⟨c, cached⟩
  · exact .inr (.inr ⟨failure, rfl⟩)
  · exact .inr (.inl (.inl h))
  · exact .inr (.inl (.inr h))
  · exact .inl ⟨c, cached, rfl⟩

/-- A cache in memory does not fail. -/
theorem cachedName_of_memory (h : cache.backend = .memory) (store : Store) :
    cachedName cache e store client domain =
      .ok (store.find? e.clock (storeKey cache client domain)) := by
  rw [cachedName, h]
  rfl

theorem isMissing_iff_of_memory {store : Store} (h : cache.backend = .memory) :
    IsMissing cache e store client domain ↔ ∀ c cached,
      store.find? e.clock (storeKey cache client domain) ≠ some (c :: cached) := by
  simp only [IsMissing, cachedName_of_memory h, Except.ok.injEq]
  rcases store.find? e.clock (storeKey cache client domain) with _ | _ | ⟨c, cached⟩ <;> simp

/-- A name that is cached is returned, and nothing else is done. -/
theorem exec_preferred_of_hit (tuning : Tuning) {c : Character} {cached : Text}
    (h : cachedName cache e s.store client domain = .ok (some (c :: cached))) :
    exec (preferred tuning cache client domain) e s = (.ok (c :: cached), { s with trace :=
      s.trace ++ [.cache cache.backend (.get (storeKey cache client domain))] }) := by
  unfold preferred Cache.get
  rw [cachedName, storeKey] at h
  simp only [exec_bind, Backend.exec_get, h, exec_pure]
  rfl

theorem preferred_of_hit (tuning : Tuning) {c : Character} {cached : Text}
    (h : cachedName cache e s.store client domain = .ok (some (c :: cached))) :
    (exec (preferred tuning cache client domain) e s).1 = .ok (c :: cached) ∧
      (exec (preferred tuning cache client domain) e s).2.store = s.store := by
  rw [exec_preferred_of_hit tuning h]
  exact ⟨rfl, rfl⟩

/-- Where the cache fails, so does the call, and nothing else is done. -/
theorem exec_preferred_of_error (tuning : Tuning) {failure : Failure}
    (h : cachedName cache e s.store client domain = .error failure) :
    exec (preferred tuning cache client domain) e s = (.error failure, { s with trace :=
      s.trace ++ [.cache cache.backend (.get (storeKey cache client domain))] }) := by
  unfold preferred Cache.get
  rw [cachedName, storeKey] at h
  simp only [exec_bind, Backend.exec_get, h]
  rfl

/-- What a call does where nothing is cached. -/
def renew (tuning : Tuning) (cache : Cache) (client : Address) (domain : Text) : Action Text :=
  fresh tuning client domain >>= fun text =>
    cache.set (cacheKey client domain) text tuning.pointerCacheTtl true >>= fun _ => pure text

/-- The result of that, and the store after it. -/
def renewed (tuning : Tuning) (cache : Cache) (client : Address) (domain : Text) (e : Environment)
    (store : Store) : Except Failure Text × Store :=
  match (fresh tuning client domain).answer e with
  | .error failure => (.error failure, store)
  | .ok text =>
    let (answer, after) :=
      cache.backend.stored e store (storeKey cache client domain) text tuning.pointerCacheTtl
    (answer.map fun _ => text, after)

/-- A name is returned anew if it is found and can be stored. -/
theorem renewed_eq_ok_iff {store : Store} :
    (renewed tuning cache client domain e store).1 = .ok text ↔
      (fresh tuning client domain).answer e = .ok text ∧
        (cache.backend.stored e store (storeKey cache client domain) text
          tuning.pointerCacheTtl).1 = .ok () := by
  rw [renewed]
  cases (fresh tuning client domain).answer e with
  | error failure => simp
  | ok found =>
    simp only [Except.ok.injEq]
    constructor
    · intro h
      rcases hset : (cache.backend.stored e store (storeKey cache client domain) found
        tuning.pointerCacheTtl).1 with failure | _
      · rw [hset] at h
        cases h
      · rw [hset] at h
        obtain rfl := Except.ok.inj h
        exact ⟨rfl, hset⟩
    · rintro ⟨rfl, h⟩
      rw [h]
      rfl

theorem renewed_of_ok {store : Store} (hfresh : (fresh tuning client domain).answer e = .ok text) :
    (renewed tuning cache client domain e store).2 =
      (cache.backend.stored e store (storeKey cache client domain) text
        tuning.pointerCacheTtl).2 := by
  simp only [renewed, hfresh]

theorem exec_renew (tuning : Tuning) (cache : Cache) (client : Address) (domain : Text)
    (e : Environment) (s : State) :
    (exec (renew tuning cache client domain) e s).1 =
        (renewed tuning cache client domain e s.store).1 ∧
      (exec (renew tuning cache client domain) e s).2.store =
        (renewed tuning cache client domain e s.store).2 := by
  rw [renew, renewed, exec_bind, (usesNoCache_fresh _ _ _).exec]
  cases (fresh tuning client domain).answer e with
  | error failure => exact ⟨rfl, rfl⟩
  | ok text =>
    have hset := Cache.exec_set cache (cacheKey client domain) text
      tuning.pointerCacheTtl true e ⟨s.store, s.trace ++ (fresh tuning client domain).events e⟩
    simp only [exec_bind, storeKey, ← hset]
    rcases exec (cache.set _ _ _ _) e _ with ⟨failure | _, after⟩ <;> exact ⟨rfl, rfl⟩

theorem exec_preferred_of_miss (h : IsMissing cache e s.store client domain) :
    exec (preferred tuning cache client domain) e s =
      exec (renew tuning cache client domain) e
        { s with trace := s.trace ++
          [.cache cache.backend (.get (storeKey cache client domain))] } := by
  unfold preferred Cache.get
  rw [IsMissing, cachedName, storeKey] at h
  rcases h with h | h <;>
    simp only [storeKey, exec_bind, Backend.exec_get, renew, fresh, (usesNoCache_names _ _).exec,
      h] <;>
    cases (ValidatedName.names tuning client).answer e <;> rfl

/-- Where none is cached, the preferred name is found anew and stored. -/
theorem preferred_of_miss (tuning : Tuning) (h : IsMissing cache e s.store client domain) :
    (exec (preferred tuning cache client domain) e s).1 =
        (renewed tuning cache client domain e s.store).1 ∧
      (exec (preferred tuning cache client domain) e s).2.store =
        (renewed tuning cache client domain e s.store).2 := by
  rw [exec_preferred_of_miss h]
  exact exec_renew tuning cache client domain e _

/-- Nothing is cached in a store without entries. -/
theorem isMissing_memory_nil {space : Text} : IsMissing ⟨.memory, space⟩ e [] client domain :=
  .inl rfl

/-- The cache does what a call for the preferred name asks of it, whatever is stored: it answers,
and where no name is cached it stores the one that is found. -/
structure IsServed (tuning : Tuning) (cache : Cache) (client : Address) (domain : Text)
    (e : Environment) : Prop where
  finds : ∀ store, ∃ name?, cachedName cache e store client domain = .ok name?
  keeps : ∀ store name, IsMissing cache e store client domain →
    (fresh tuning client domain).answer e = .ok name →
    (cache.backend.stored e store (storeKey cache client domain) name
      tuning.pointerCacheTtl).1 = .ok ()

theorem isServed_memory {space : Text}
    (h : Store.deadline? e.clock tuning.pointerCacheTtl = .ok deadline) :
    IsServed tuning ⟨.memory, space⟩ client domain e where
  finds _ := ⟨_, rfl⟩
  keeps store name _ _ := by rw [Backend.stored_memory h]

section

variable (hkeys : cache.backend.StoresByKey e.redis)

include hkeys

theorem isMissing_nil_of_ok {name? : Option Text}
    (h : cachedName cache e [] client domain = .ok name?) : IsMissing cache e [] client domain := by
  rcases hkeys.found_cases (storeKey cache client domain) with ⟨failure, hfound⟩ | hfound
  · cases h.symm.trans (hfound [])
  · exact .inl (hfound [])

/-- What is returned on the empty store is found anew. -/
theorem fresh_of_preferred (h : (exec (preferred tuning cache client domain) e {}).1 = .ok text) :
    (fresh tuning client domain).answer e = .ok text := by
  rcases hget : cachedName cache e [] client domain with failure | name?
  · rw [exec_preferred_of_error (s := {}) tuning hget] at h
    cases h
  · have hmissing := isMissing_nil_of_ok hkeys hget
    rw [(preferred_of_miss (s := {}) tuning hmissing).1] at h
    exact (renewed_eq_ok_iff.1 h).1

/-- Where the cache serves, what is found anew is returned on the empty store. -/
theorem preferred_of_fresh (hserved : IsServed tuning cache client domain e)
    (h : (fresh tuning client domain).answer e = .ok text) :
    (exec (preferred tuning cache client domain) e {}).1 = .ok text := by
  obtain ⟨name?, hget⟩ := hserved.finds []
  have hmissing := isMissing_nil_of_ok hkeys hget
  rw [(preferred_of_miss (s := {}) tuning hmissing).1]
  exact renewed_eq_ok_iff.2 ⟨h, hserved.keeps [] text hmissing h⟩

end

/-- A call fails as the search for the validated names does, or as the cache does. -/
theorem failsOnly_preferred (h : FailsOnly p e (ValidatedName.names tuning client))
    (hfound : ∀ store failure, cachedName cache e store client domain = .error failure →
      p failure)
    (hstored : ∀ store text failure, IsMissing cache e store client domain →
      (fresh tuning client domain).answer e = .ok text →
      (cache.backend.stored e store (storeKey cache client domain) text
        tuning.pointerCacheTtl).1 = .error failure → p failure) :
    FailsOnly p e (preferred tuning cache client domain) := by
  have hfresh : FailsOnly p e (fresh tuning client domain) := h.bind fun _ => failsOnly_pure _
  intro s failure hfailure
  rcases cachedName_cases cache e s.store client domain with ⟨c, cached, hhit⟩ | hmiss |
    ⟨other, herror⟩
  · rw [(preferred_of_hit tuning hhit).1] at hfailure
    cases hfailure
  · rw [(preferred_of_miss tuning hmiss).1, renewed] at hfailure
    cases hanswer : (fresh tuning client domain).answer e with
    | error other =>
      rw [hanswer] at hfailure
      obtain rfl : other = failure := Except.error.inj hfailure
      exact hfresh s other (by rw [(usesNoCache_fresh _ _ _).exec, hanswer])
    | ok text =>
      simp only [hanswer] at hfailure
      refine hstored s.store text failure hmiss hanswer ?_
      rcases hset : (cache.backend.stored e s.store (storeKey cache client domain) text
        tuning.pointerCacheTtl).1 with other | _
      · rw [hset] at hfailure
        exact congrArg Except.error (Except.error.inj hfailure)
      · rw [hset] at hfailure
        cases hfailure
  · rw [exec_preferred_of_error tuning herror] at hfailure
    obtain rfl : other = failure := Except.error.inj hfailure
    exact hfound s.store other herror

end SenderPolicy.ValidatedName
