import SenderPolicy.Proofs.Expansion.Concatenation
import SenderPolicy.Proofs.Expansion.Failures
import SenderPolicy.Proofs.ValidatedName.Lookups

/-! The effects of an expansion.  `Lookup` says what the letter of the validated name asks and sets,
and `Course` what a list of pieces does up to the first one that fails.  Every expansion of
a string that has been scanned takes the course of its pieces, and no list of pieces has two. -/

namespace SenderPolicy.Expander

open SenderPolicy.Action

variable {x : Expander} {session : Session} {e : Environment} {n : Int} {process : Settings}
  {letters : List Character} {value : Text} {s : State} {store : Store} {events : List Event}

/-- The key of the store under which the validated name of a session is cached. -/
def nameKey (x : Expander) (session : Session) : Text :=
  ValidatedName.storeKey x.cache session.client session.currentDomain

/-- What the cache answers under the key. -/
def cachedName (x : Expander) (session : Session) (e : Environment) (store : Store) :
    Except Failure (Option Text) :=
  ValidatedName.cachedName x.cache e store session.client session.currentDomain

/-- No text is found under the key, or the empty one. -/
def IsMissing (x : Expander) (session : Session) (e : Environment) (store : Store) : Prop :=
  x.cachedName session e store = .ok none ∨ x.cachedName session e store = .ok (some [])

/-- What becomes of a name that is set in the cache, and of the store. -/
def kept (x : Expander) (session : Session) (e : Environment) (store : Store) (name : Text) :
    Except Failure Text × Store :=
  let (answer, after) :=
    x.cache.backend.stored e store (x.nameKey session) name x.tuning.pointerCacheTtl
  (answer.map fun _ => name, after)

/-! ### Names that are set -/

/-- In memory a name is stored even if no clock can count its time to live, which is a failure. -/
theorem kept_memory {ttl : Int} (hmemory : x.cache.backend = .memory)
    (httl : x.tuning.pointerCacheTtl = .integer ttl) (name : Text) :
    (Binary64.isInRange ttl → ∃ deadline, x.kept session e store name =
      (.ok name, store.insert (x.nameKey session) ⟨name, deadline⟩)) ∧
    (¬Binary64.isInRange ttl → x.kept session e store name =
      (.error (.duration .tooLong), store.insert (x.nameKey session) ⟨name, none⟩)) := by
  unfold kept
  rw [hmemory, httl]
  constructor
  · intro hrange
    obtain ⟨deadline, hdeadline⟩ := Store.exists_deadline hrange e.clock
    exact ⟨deadline, by rw [Backend.stored_memory hdeadline]; rfl⟩
  · intro hrange
    rw [Backend.stored_of_not_isInRange hrange]
    rfl

/-- A database that is reached stores a name exactly if it takes it, and otherwise it stores
nothing, which is a failure. -/
theorem kept_redis {ttl : Int} {url : Text} (hbackend : x.cache.backend = .redis url)
    (httl : x.tuning.pointerCacheTtl = .integer ttl) (name : Text) :
    (e.redis.IsReached → Redis.Takes (x.nameKey session) name ttl → x.kept session e store name =
      (.ok name, store.insert (x.nameKey session) ⟨name, none⟩)) ∧
    (e.redis.IsDocumented → ¬Redis.Takes (x.nameKey session) name ttl →
      ∃ fault, x.kept session e store name = (.error (.redis fault), store)) := by
  unfold kept
  rw [hbackend, httl]
  constructor
  · intro hreached htakes
    rw [Backend.stored, hreached.set_of_takes htakes]
    rfl
  · intro hdocumented htakes
    obtain ⟨fault, hset⟩ := hdocumented.set_of_not_takes htakes e.clock
    exact ⟨fault, by rw [Backend.stored, hset]; rfl⟩

/-! ### Courses -/

/-- What is asked and set for the validated name where it is not cached, and how that ends. -/
inductive Search (x : Expander) (session : Session) (e : Environment) (n : Int) (store : Store)
    (name : Text) : List Event → Except Failure Text × Store → Prop
  | failed (cause : ResolutionCause)
      (outcome : Resolution.cause? (e.zone.pointers name) = some cause) :
      Search x session e n store name [.query ⟨.pointer, name⟩]
        (.error (.expansion { cause := .unresolved ⟨name, cause⟩ }), store)
  | absent (outcome : e.zone.pointers name = .absent ∨ e.zone.pointers name = .noRecords) :
      Search x session e n store name
        [.query ⟨.pointer, name⟩, .cache x.cache.backend (.set (x.nameKey session)
          ValidatedName.unknown x.tuning.pointerCacheTtl)]
        (x.kept session e store ValidatedName.unknown)
  | answered (chosen : Text) (targets : List DomainName)
      (outcome : e.zone.pointers name = .answer targets)
      (choice : chosen = ValidatedName.choose
        (ValidatedName.confirmedAmong e session.client n (targets.map DomainName.toText))
        session.currentDomain) :
      Search x session e n store name
        (.query ⟨.pointer, name⟩ ::
          (ValidatedName.hostQueries session.client n (targets.map DomainName.toText) ++
            [.cache x.cache.backend (.set (x.nameKey session) chosen x.tuning.pointerCacheTtl)]))
        (x.kept session e store chosen)

/-- What the letter of the validated name asks and sets, and how it ends. -/
inductive Lookup (x : Expander) (session : Session) (e : Environment) (n : Int) (store : Store) :
    List Event → Except Failure Text × Store → Prop
  | cached (c : Character) (text : Text)
      (found : x.cachedName session e store = .ok (some (c :: text))) :
      Lookup x session e n store [.cache x.cache.backend (.get (x.nameKey session))]
        (.ok (c :: text), store)
  | unserved (fault : RedisFault) (found : x.cachedName session e store = .error (.redis fault)) :
      Lookup x session e n store [.cache x.cache.backend (.get (x.nameKey session))]
        (.error (.redis fault), store)
  | searched {events : List Event} {ended : Except Failure Text × Store} (name : Text)
      (missing : IsMissing x session e store)
      (pointerName : session.client.pointerName? = some name)
      (search : Search x session e n store name events ended) :
      Lookup x session e n store (.cache x.cache.backend (.get (x.nameKey session)) :: events)
        ended

/-- What the pieces of a string ask and set, one after another up to the first failure, and how that
ends. -/
inductive Course (x : Expander) (session : Session) (e : Environment) (n : Int) :
    List Piece → Store → List Event → Except Failure Unit × Store → Prop
  | done (store : Store) : Course x session e n [] store [] (.ok (), store)
  | literal {pieces : List Piece} {store : Store} {events : List Event}
      {ended : Except Failure Unit × Store} (text : Text)
      (rest : Course x session e n pieces store events ended) :
      Course x session e n (.literal text :: pieces) store events ended
  | plain {pieces : List Piece} {store : Store} {events : List Event}
      {ended : Except Failure Unit × Store} (token : Token) (text : Text)
      (letter : token.letter ≠ .validatedName)
      (resolved : transformed token ((x.resolve session token.letter).answer e) = .ok text)
      (rest : Course x session e n pieces store events ended) :
      Course x session e n (.token token :: pieces) store events ended
  | plainFails {pieces : List Piece} {store : Store} (token : Token) (failure : Failure)
      (letter : token.letter ≠ .validatedName)
      (resolved : transformed token ((x.resolve session token.letter).answer e) = .error failure) :
      Course x session e n (.token token :: pieces) store [] (.error failure, store)
  | lookup {pieces : List Piece} {store middle : Store} {events later : List Event}
      {ended : Except Failure Unit × Store} (token : Token) (result : Except Failure Text)
      (text : Text) (letter : token.letter = .validatedName)
      (looked : Lookup x session e n store events (result, middle))
      (resolved : transformed token result = .ok text)
      (rest : Course x session e n pieces middle later ended) :
      Course x session e n (.token token :: pieces) store (events ++ later) ended
  | lookupFails {pieces : List Piece} {store after : Store} {events : List Event} (token : Token)
      (result : Except Failure Text) (failure : Failure) (letter : token.letter = .validatedName)
      (looked : Lookup x session e n store events (result, after))
      (resolved : transformed token result = .error failure) :
      Course x session e n (.token token :: pieces) store events (.error failure, after)

/-! ### One course -/

theorem Search.unique {name : Text} {others : List Event}
    {ended other : Except Failure Text × Store}
    (h : Search x session e n store name events ended)
    (hother : Search x session e n store name others other) :
    others = events ∧ other = ended := by
  cases h with
  | failed cause outcome =>
    cases hother with
    | failed reason hreason =>
      obtain rfl := Option.some.inj (outcome.symm.trans hreason)
      exact ⟨rfl, rfl⟩
    | absent habsent => rcases habsent with h | h <;> rw [h] at outcome <;> cases outcome
    | answered _ _ hanswered =>
      rw [hanswered] at outcome
      cases outcome
  | absent outcome =>
    cases hother with
    | failed reason hreason => rcases outcome with h | h <;> rw [h] at hreason <;> cases hreason
    | absent => exact ⟨rfl, rfl⟩
    | answered _ _ hanswered =>
      rcases outcome with h | h <;> rw [h] at hanswered <;> cases hanswered
  | answered chosen targets outcome choice =>
    cases hother with
    | failed reason hreason =>
      rw [outcome] at hreason
      cases hreason
    | absent habsent => rcases habsent with h | h <;> rw [outcome] at h <;> cases h
    | answered _ found hanswered hchoice =>
      obtain rfl := Outcome.answer.inj (outcome.symm.trans hanswered)
      obtain rfl := choice.trans hchoice.symm
      exact ⟨rfl, rfl⟩

theorem Lookup.unique {others : List Event} {ended other : Except Failure Text × Store}
    (h : Lookup x session e n store events ended)
    (hother : Lookup x session e n store others other) : others = events ∧ other = ended := by
  cases h with
  | cached c text found =>
    cases hother with
    | cached d cached hcached =>
      cases found.symm.trans hcached
      exact ⟨rfl, rfl⟩
    | unserved _ hfault => cases found.symm.trans hfault
    | searched _ missing => rcases missing with h | h <;> cases found.symm.trans h
  | unserved fault found =>
    cases hother with
    | cached _ _ hcached => cases found.symm.trans hcached
    | unserved _ hfault =>
      cases found.symm.trans hfault
      exact ⟨rfl, rfl⟩
    | searched _ missing => rcases missing with h | h <;> cases found.symm.trans h
  | searched name missing pointerName search =>
    cases hother with
    | cached _ _ found => rcases missing with h | h <;> cases found.symm.trans h
    | unserved _ found => rcases missing with h | h <;> cases found.symm.trans h
    | searched reverse _ hreverse hsearch =>
      obtain rfl := Option.some.inj (pointerName.symm.trans hreverse)
      obtain ⟨rfl, rfl⟩ := search.unique hsearch
      exact ⟨rfl, rfl⟩

theorem Course.unique {pieces : List Piece} {others : List Event}
    {ended other : Except Failure Unit × Store} (h : Course x session e n pieces store events ended)
    (hother : Course x session e n pieces store others other) :
    others = events ∧ other = ended := by
  induction h generalizing others other with
  | done store =>
    cases hother
    exact ⟨rfl, rfl⟩
  | literal text rest ih =>
    cases hother with
    | literal _ hrest => exact ih hrest
  | plain token text letter resolved rest ih =>
    cases hother with
    | plain _ _ _ _ hrest => exact ih hrest
    | plainFails _ failure _ hresolved => cases resolved.symm.trans hresolved
    | lookup _ _ _ hletter => exact absurd hletter letter
    | lookupFails _ _ _ hletter => exact absurd hletter letter
  | plainFails token failure letter resolved =>
    cases hother with
    | plain _ text _ hresolved => cases resolved.symm.trans hresolved
    | plainFails _ reason _ hresolved =>
      cases resolved.symm.trans hresolved
      exact ⟨rfl, rfl⟩
    | lookup _ _ _ hletter => exact absurd hletter letter
    | lookupFails _ _ _ hletter => exact absurd hletter letter
  | lookup token result text letter looked resolved rest ih =>
    cases hother with
    | plain _ _ hletter => exact absurd letter hletter
    | plainFails _ _ hletter => exact absurd letter hletter
    | lookup _ _ _ _ hlooked _ hrest =>
      obtain ⟨rfl, hended⟩ := looked.unique hlooked
      cases hended
      obtain ⟨rfl, rfl⟩ := ih hrest
      exact ⟨rfl, rfl⟩
    | lookupFails _ _ _ _ hlooked hresolved =>
      cases (looked.unique hlooked).2
      cases resolved.symm.trans hresolved
  | lookupFails token result failure letter looked resolved =>
    cases hother with
    | plain _ _ hletter => exact absurd letter hletter
    | plainFails _ _ hletter => exact absurd letter hletter
    | lookup _ _ _ _ hlooked hresolved =>
      cases (looked.unique hlooked).2
      cases resolved.symm.trans hresolved
    | lookupFails _ _ _ _ hlooked hresolved =>
      obtain ⟨rfl, hended⟩ := looked.unique hlooked
      cases hended
      cases resolved.symm.trans hresolved
      exact ⟨rfl, rfl⟩

/-! ### Questions -/

theorem type_ne_text_of_mem_hostQueries {client : Address} {found : List Text}
    {question : Question} (h : .query question ∈ ValidatedName.hostQueries client n found) :
    question.type ≠ .text := by
  obtain ⟨name, -, hname⟩ := List.mem_map.1 h
  obtain rfl := Event.query.inj hname
  cases client <;> nofun

theorem Search.type_ne_text {name : Text} {ended : Except Failure Text × Store}
    {question : Question} (h : Search x session e n store name events ended)
    (hq : .query question ∈ events) : question.type ≠ .text := by
  cases h with
  | failed cause outcome =>
    obtain rfl : question = ⟨.pointer, name⟩ := by simpa using hq
    nofun
  | absent outcome =>
    obtain rfl : question = ⟨.pointer, name⟩ := by simpa using hq
    nofun
  | answered chosen targets outcome choice =>
    simp only [List.mem_cons, List.mem_append, reduceCtorEq, List.not_mem_nil, or_false,
      Event.query.injEq] at hq
    rcases hq with rfl | hq
    · nofun
    · exact type_ne_text_of_mem_hostQueries hq

theorem Lookup.type_ne_text {ended : Except Failure Text × Store} {question : Question}
    (h : Lookup x session e n store events ended) (hq : .query question ∈ events) :
    question.type ≠ .text := by
  cases h with
  | cached c text found => simp at hq
  | unserved fault found => simp at hq
  | searched name missing pointerName search =>
    rcases List.mem_cons.1 hq with hq | hq
    · cases hq
    · exact search.type_ne_text hq

/-- No expansion asks for texts. -/
theorem Course.type_ne_text {pieces : List Piece} {ended : Except Failure Unit × Store}
    {question : Question} (h : Course x session e n pieces store events ended)
    (hq : .query question ∈ events) : question.type ≠ .text := by
  induction h with
  | done store => cases hq
  | literal text rest ih => exact ih hq
  | plain token text letter resolved rest ih => exact ih hq
  | plainFails token failure letter resolved => cases hq
  | lookup token result text letter looked resolved rest ih =>
    rcases List.mem_append.1 hq with hq | hq
    · exact looked.type_ne_text hq
    · exact ih hq
  | lookupFails token result failure letter looked resolved => exact looked.type_ne_text hq

/-! ### Letters -/

/-- Where no name is missing, one is cached or the database fails. -/
theorem cached_or_unserved (h : ¬x.IsMissing session e store) :
    (∃ c text, x.cachedName session e store = .ok (some (c :: text))) ∨
      ∃ fault, x.cachedName session e store = .error (.redis fault) := by
  rcases ValidatedName.cachedName_cases x.cache e store session.client session.currentDomain with
    hhit | hmissing | ⟨failure, hfailure⟩
  · exact .inl hhit
  · exact absurd hmissing h
  · obtain ⟨fault, rfl⟩ := Backend.exists_of_found_eq_error hfailure
    exact .inr ⟨fault, hfailure⟩

/-- A name that is cached is returned, and nothing but the cache is asked for it. -/
theorem exec_resolve_of_cached {c : Character} {text : Text}
    (h : x.cachedName session e s.store = .ok (some (c :: text))) :
    exec (x.resolve session .validatedName) e s = (.ok (c :: text), { s with trace :=
      s.trace ++ [.cache x.cache.backend (.get (x.nameKey session))] }) := by
  rw [exec_resolve_validatedName, ValidatedName.exec_preferred_of_hit x.tuning h]
  rfl

theorem exec_resolve_of_unserved {fault : RedisFault}
    (h : x.cachedName session e s.store = .error (.redis fault)) :
    exec (x.resolve session .validatedName) e s = (.error (.redis fault), { s with trace :=
      s.trace ++ [.cache x.cache.backend (.get (x.nameKey session))] }) := by
  rw [exec_resolve_validatedName, ValidatedName.exec_preferred_of_error x.tuning h]
  rfl

theorem asks_resolve_of_not_missing (h : ¬x.IsMissing session e s.store) :
    Asks [] s (exec (x.resolve session .validatedName) e s).2 := by
  rcases cached_or_unserved h with ⟨c, text, hhit⟩ | ⟨fault, hfault⟩
  · rw [exec_resolve_of_cached hhit]
    exact ⟨_, rfl, rfl⟩
  · rw [exec_resolve_of_unserved hfault]
    exact ⟨_, rfl, rfl⟩

/-- A name that is not cached is looked up under the one name of the client's pointers. -/
theorem asks_resolve_of_missing (h : x.IsMissing session e s.store) :
    Asks session.client.pointerName?.toList s (exec (x.resolve session .validatedName) e s).2 := by
  rw [exec_resolve_validatedName]
  exact ValidatedName.asks_preferred_of_miss x.tuning h

/-- Where nothing is cached, a search that fails leaves the store as it is. -/
theorem resolve_of_names_error {failure : Failure} (hmissing : IsMissing x session e s.store)
    (hnames : (ValidatedName.names x.tuning session.client).answer e = .error failure) :
    ((exec (x.resolve session .validatedName) e s).1,
        (exec (x.resolve session .validatedName) e s).2.store) =
        (.error (raised failure), s.store) ∧
      Adds (.cache x.cache.backend (.get (x.nameKey session)) ::
        (ValidatedName.names x.tuning session.client).effects e) s
        (exec (x.resolve session .validatedName) e s).2 := by
  have hfresh : (ValidatedName.fresh x.tuning session.client session.currentDomain).answer e =
      .error failure := by
    rw [ValidatedName.answer_fresh, hnames]
    rfl
  have hadds := ValidatedName.adds_preferred_of_miss x.tuning hmissing
  obtain ⟨hresult, hstore⟩ := ValidatedName.preferred_of_miss x.tuning hmissing
  rw [ValidatedName.renewals, hfresh, List.append_nil] at hadds
  rw [ValidatedName.renewed, hfresh] at hresult hstore
  rw [exec_resolve_validatedName, hresult, hstore]
  exact ⟨rfl, hadds⟩

/-- A name that cannot be set is not taken for one that cannot be found. -/
theorem mapError_raised_kept {name : Text} :
    (x.kept session e store name).1.mapError raised = (x.kept session e store name).1 := by
  unfold kept
  rcases hset : x.cache.backend.stored e store (x.nameKey session) name
    x.tuning.pointerCacheTtl with ⟨failure | _, after⟩
  · rcases Backend.exists_of_stored_eq_error (congrArg Prod.fst hset) with
      ⟨fault, rfl⟩ | ⟨fault, rfl⟩
    · rfl
    · rfl
  · rfl

/-- Where nothing is cached, what a search chooses is set in the cache. -/
theorem resolve_of_names_ok {found : List Text} (hmissing : IsMissing x session e s.store)
    (hnames : (ValidatedName.names x.tuning session.client).answer e = .ok found) :
    ((exec (x.resolve session .validatedName) e s).1,
        (exec (x.resolve session .validatedName) e s).2.store) =
        x.kept session e s.store (ValidatedName.choose found session.currentDomain) ∧
      Adds (.cache x.cache.backend (.get (x.nameKey session)) ::
        ((ValidatedName.names x.tuning session.client).effects e ++
          [.cache x.cache.backend (.set (x.nameKey session)
            (ValidatedName.choose found session.currentDomain) x.tuning.pointerCacheTtl)])) s
        (exec (x.resolve session .validatedName) e s).2 := by
  have hfresh : (ValidatedName.fresh x.tuning session.client session.currentDomain).answer e =
      .ok (ValidatedName.choose found session.currentDomain) := by
    rw [ValidatedName.answer_fresh, hnames]
    rfl
  have hadds := ValidatedName.adds_preferred_of_miss x.tuning hmissing
  obtain ⟨hresult, hstore⟩ := ValidatedName.preferred_of_miss x.tuning hmissing
  rw [ValidatedName.renewals, hfresh] at hadds
  rw [ValidatedName.renewed, hfresh] at hresult hstore
  rw [exec_resolve_validatedName, hresult, hstore]
  exact ⟨Prod.ext mapError_raised_kept rfl, hadds⟩

/-- What the letter of the validated name does on a state is one of the ways of `Lookup`. -/
def IsLookup (x : Expander) (session : Session) (e : Environment) (n : Int) (s : State) : Prop :=
  ∃ events, Adds events s (exec (x.resolve session .validatedName) e s).2 ∧
    Lookup x session e n s.store events
      ((exec (x.resolve session .validatedName) e s).1,
        (exec (x.resolve session .validatedName) e s).2.store)

theorem isLookup_of_cause {name : Text} {cause : ResolutionCause} (he : e.settings = .ok process)
    (hmissing : IsMissing x session e s.store) (hname : session.client.pointerName? = some name)
    (hcause : Resolution.cause? (e.zone.pointers name) = some cause) :
    IsLookup x session e n s := by
  obtain ⟨hnames, heffects⟩ := ValidatedName.names_of_pointers_error x.tuning hname
    (Resolution.answer_pointers_of_cause he hcause)
  obtain ⟨hended, hadds⟩ := resolve_of_names_error hmissing hnames
  rw [heffects] at hadds
  rw [IsLookup, hended]
  exact ⟨_, hadds, .searched name hmissing hname (.failed cause hcause)⟩

theorem isLookup_of_no_answer {name : Text} (he : e.settings = .ok process)
    (hcount : x.tuning.maxPointerNames = .integer n) (hn : 0 ≤ n)
    (hmissing : IsMissing x session e s.store) (hname : session.client.pointerName? = some name)
    (houtcome : e.zone.pointers name = .absent ∨ e.zone.pointers name = .noRecords) :
    IsLookup x session e n s := by
  obtain ⟨hnames, heffects⟩ := ValidatedName.names_of_pointers_ok he hname hcount hn
    (Resolution.answer_pointers_of_no_answer houtcome)
  obtain ⟨hended, hadds⟩ := resolve_of_names_ok hmissing hnames
  rw [heffects, ValidatedName.hostQueries_nil] at hadds
  rw [ValidatedName.confirmedAmong_nil, ValidatedName.choose_nil] at hadds hended
  rw [IsLookup, hended]
  exact ⟨_, hadds, .searched name hmissing hname (.absent houtcome)⟩

theorem isLookup_of_answer {name : Text} {targets : List DomainName} (he : e.settings = .ok process)
    (hcount : x.tuning.maxPointerNames = .integer n) (hn : 0 ≤ n)
    (hmissing : IsMissing x session e s.store) (hname : session.client.pointerName? = some name)
    (houtcome : e.zone.pointers name = .answer targets) : IsLookup x session e n s := by
  obtain ⟨hnames, heffects⟩ := ValidatedName.names_of_pointers_ok he hname hcount hn
    (Resolution.answer_pointers_of_answer houtcome)
  obtain ⟨hended, hadds⟩ := resolve_of_names_ok hmissing hnames
  rw [heffects] at hadds
  rw [IsLookup, hended]
  exact ⟨_, hadds, .searched name hmissing hname (.answered _ targets houtcome rfl)⟩

/-- The step lemma: on every state the letter does what `Lookup` says. -/
theorem isLookup (he : e.settings = .ok process) (hcount : x.tuning.maxPointerNames = .integer n)
    (hn : 0 ≤ n) (hscope : session.client.isScoped = false) (s : State) :
    IsLookup x session e n s := by
  by_cases hmissing : IsMissing x session e s.store
  · obtain ⟨name, hname⟩ := Address.exists_pointerName? hscope
    cases houtcome : e.zone.pointers name with
    | answer targets => exact isLookup_of_answer he hcount hn hmissing hname houtcome
    | absent => exact isLookup_of_no_answer he hcount hn hmissing hname (.inl houtcome)
    | noRecords => exact isLookup_of_no_answer he hcount hn hmissing hname (.inr houtcome)
    | timeout =>
      exact isLookup_of_cause he hmissing hname (congrArg Resolution.cause? houtcome)
    | failed fault =>
      exact isLookup_of_cause he hmissing hname (congrArg Resolution.cause? houtcome)
  · rcases cached_or_unserved hmissing with ⟨c, text, hhit⟩ | ⟨fault, hfault⟩
    · rw [IsLookup, exec_resolve_of_cached hhit]
      exact ⟨_, ⟨_, rfl, rfl⟩, .cached c text hhit⟩
    · rw [IsLookup, exec_resolve_of_unserved hfault]
      exact ⟨_, ⟨_, rfl, rfl⟩, .unserved fault hfault⟩

/-! ### Strings -/

/-- How an expansion ends, without its text. -/
def ended (r : Except Failure Text × State) : Except Failure Unit × Store :=
  (r.1.map fun _ => (), r.2.store)

theorem ended_expandPieces_literal (x : Expander) (session : Session) (e : Environment)
    (text : Text) (pieces : List Piece) (s : State) :
    ended (exec (x.expandPieces session (.literal text :: pieces)) e s) =
        ended (exec (x.expandPieces session pieces) e s) ∧
      (exec (x.expandPieces session (.literal text :: pieces)) e s).2 =
        (exec (x.expandPieces session pieces) e s).2 := by
  rw [expandPieces_literal, exec_bind]
  rcases exec (x.expandPieces session pieces) e s with ⟨failure | later, after⟩ <;> exact ⟨rfl, rfl⟩

theorem exec_expandPieces_of_transformed_error {token : Token} {result : Except Failure Text}
    {failure : Failure} {after : State} (hresolved : transformed token result = .error failure)
    (h : exec (x.resolve session token.letter) e s = (result, after)) (pieces : List Piece) :
    exec (x.expandPieces session (.token token :: pieces)) e s = (.error failure, after) := by
  rw [expandPieces_cons, exec_bind, exec_expandPiece_token, h, hresolved]

/-- A macro that has a text is followed by the rest. -/
theorem ended_expandPieces_of_transformed_ok {token : Token} {result : Except Failure Text}
    {text : Text} {after : State} (hresolved : transformed token result = .ok text)
    (h : exec (x.resolve session token.letter) e s = (result, after)) (pieces : List Piece) :
    ended (exec (x.expandPieces session (.token token :: pieces)) e s) =
        ended (exec (x.expandPieces session pieces) e after) ∧
      (exec (x.expandPieces session (.token token :: pieces)) e s).2 =
        (exec (x.expandPieces session pieces) e after).2 := by
  rw [expandPieces_cons, exec_bind, exec_expandPiece_token, h, hresolved]
  simp only [exec_pure, exec_bind]
  rcases exec (x.expandPieces session pieces) e after with ⟨failure | later, last⟩ <;>
    exact ⟨rfl, rfl⟩

/-- The run lemma: an expansion takes the course of its pieces. -/
theorem course_expandPieces (he : e.settings = .ok process)
    (hcount : x.tuning.maxPointerNames = .integer n) (hn : 0 ≤ n)
    (hscope : session.client.isScoped = false) (pieces : List Piece) (s : State) :
    ∃ events, Adds events s (exec (x.expandPieces session pieces) e s).2 ∧
      Course x session e n pieces s.store events
        (ended (exec (x.expandPieces session pieces) e s)) := by
  induction pieces generalizing s with
  | nil => exact ⟨[], .refl s, .done s.store⟩
  | cons piece pieces ih =>
    cases piece with
    | literal text =>
      obtain ⟨hended, hafter⟩ := ended_expandPieces_literal x session e text pieces s
      obtain ⟨events, hadds, hcourse⟩ := ih s
      rw [hended, hafter]
      exact ⟨events, hadds, .literal text hcourse⟩
    | token token =>
      by_cases hletter : token.letter = .validatedName
      · obtain ⟨events, hadds, hlooked⟩ := isLookup he hcount hn hscope s
        rw [← hletter] at hadds hlooked
        rcases hresolve : exec (x.resolve session token.letter) e s with ⟨result, middle⟩
        rw [hresolve] at hadds hlooked
        cases hresolved : transformed token result with
        | error failure =>
          rw [exec_expandPieces_of_transformed_error hresolved hresolve pieces]
          exact ⟨events, hadds, .lookupFails token result failure hletter hlooked hresolved⟩
        | ok text =>
          obtain ⟨hended, hafter⟩ := ended_expandPieces_of_transformed_ok hresolved hresolve pieces
          obtain ⟨later, hrest, hcourse⟩ := ih middle
          rw [hended, hafter]
          exact ⟨events ++ later, hadds.trans hrest,
            .lookup token result text hletter hlooked hresolved hcourse⟩
      · have hresolve : exec (x.resolve session token.letter) e s = _ :=
          exec_resolve_of_ne hletter s
        cases hresolved : transformed token ((x.resolve session token.letter).answer e) with
        | error failure =>
          rw [exec_expandPieces_of_transformed_error hresolved hresolve pieces]
          exact ⟨[], .refl s, .plainFails token failure hletter hresolved⟩
        | ok text =>
          obtain ⟨hended, hafter⟩ := ended_expandPieces_of_transformed_ok hresolved hresolve pieces
          obtain ⟨events, hadds, hcourse⟩ := ih s
          rw [hended, hafter]
          exact ⟨events, hadds, .plain token text hletter hresolved hcourse⟩

/-- An expansion of a string that is scanned takes the one course of its pieces: its effects are
those of the lookups for its macros in order, up to the first macro that fails, and the store is
what they leave.  No text is asked for, and no other letter changes anything.  A name that is found
can be encoded, and is set in the cache, which keeps it and fails if that is in memory and no clock
can count the time to live, and which neither keeps it nor answers if that is a database and refuses
the time to live or is sent a key with surrogates. -/
theorem expand_takes_course (x : Expander) (session : Session) (e : Environment) (n : Int)
    (process : Settings) (he : e.settings = .ok process)
    (hcount : x.tuning.maxPointerNames = .integer n) (hn : 0 ≤ n)
    (hscope : session.client.isScoped = false) (letters : List Character) (value : Text)
    (pieces : List Piece) (hscan : MacroString.scan letters value = .ok pieces) (s : State) :
    (∃ added, (exec (x.expand session value letters) e s).2.trace = s.trace ++ added ∧
      Course x session e n pieces s.store (added.filter Event.isEffect)
        (ended (exec (x.expand session value letters) e s)) ∧
      (∀ events result, Course x session e n pieces s.store events result →
        events = added.filter Event.isEffect ∧
          result = ended (exec (x.expand session value letters) e s)) ∧
      ∀ question, .query question ∈ added → question.type ≠ .text) ∧
    (∀ letter, letter ≠ .validatedName → (exec (x.resolve session letter) e s).2 = s) ∧
    (∀ name : Text,
      (ValidatedName.fresh x.tuning session.client session.currentDomain).answer e = .ok name →
      name.isEncodable) ∧
    ∀ ttl : Int, x.tuning.pointerCacheTtl = .integer ttl → ∀ store name,
      (x.cache.backend = .memory →
        (Binary64.isInRange ttl → ∃ deadline, x.kept session e store name =
          (.ok name, store.insert (x.nameKey session) ⟨name, deadline⟩)) ∧
        (¬Binary64.isInRange ttl → x.kept session e store name =
          (.error (.duration .tooLong), store.insert (x.nameKey session) ⟨name, none⟩))) ∧
      ∀ url, x.cache.backend = .redis url →
        (e.redis.IsReached → Redis.Takes (x.nameKey session) name ttl →
          x.kept session e store name =
            (.ok name, store.insert (x.nameKey session) ⟨name, none⟩)) ∧
        (e.redis.IsDocumented → ¬Redis.Takes (x.nameKey session) name ttl →
          ∃ fault, x.kept session e store name = (.error (.redis fault), store)) := by
  refine ⟨?_, ?_, fun name => ValidatedName.isEncodable_of_fresh, ?_⟩
  · rw [expand_of_scan hscan]
    obtain ⟨events, ⟨added, htrace, rfl⟩, hcourse⟩ :=
      course_expandPieces he hcount hn hscope pieces s
    refine ⟨added, htrace, hcourse, ?_, ?_⟩
    · intro events result hother
      exact hcourse.unique hother
    · intro question hquestion
      exact hcourse.type_ne_text (List.mem_filter.2 ⟨hquestion, rfl⟩)
  · intro letter hletter
    rw [exec_resolve_of_ne hletter]
  · intro ttl httl store name
    exact ⟨fun hmemory => kept_memory hmemory httl name,
      fun url hbackend => kept_redis hbackend httl name⟩

def mailExpander : Expander := ⟨.ofSettings {}, ⟨.memory, []⟩⟩

def mailEnvironment : Environment := ⟨ValidatedName.mailZone, .ok {}, Clock.zero, .documented⟩

/-- The question that an event is, if it is one. -/
def question? : Event → Option Question
  | .query question => some question
  | _ => none

/-- Of two letters for one name, the first asks for the pointers of the client and the address of
the one target, and the second is answered by the cache. -/
theorem expand_takes_course_mail :
    let session := mailSession (.v4 #v[192, 0, 2, 1])
    let last := exec (mailExpander.expand session "%\x7bp\x7d-%\x7bp\x7d" Letter.allChars)
      mailEnvironment {}
    last.1 = .ok ("mail.example-mail.example" : Text) ∧
      last.2.trace.filterMap question? =
        [⟨.pointer, "1.2.0.192.in-addr.arpa"⟩, ⟨.ipv4Host, "mail.example"⟩] ∧
      ∃ added, last.2.trace = added ∧ Course mailExpander session mailEnvironment 10
        [.token { letter := .validatedName }, .literal "-", .token { letter := .validatedName }]
        [] (added.filter Event.isEffect) (ended last) := by
  intro session last
  have hscan : MacroString.scan Letter.allChars "%\x7bp\x7d-%\x7bp\x7d" = .ok
      [.token { letter := .validatedName }, .literal "-", .token { letter := .validatedName }] :=
    rfl
  obtain ⟨⟨added, htrace, hcourse, -⟩, -⟩ := expand_takes_course mailExpander session
    mailEnvironment 10 {} rfl rfl (by decide) rfl Letter.allChars _ _ hscan {}
  have hlast : exec (mailExpander.expand session "%\x7bp\x7d-%\x7bp\x7d" Letter.allChars)
      mailEnvironment {} = last := rfl
  rw [hlast] at htrace hcourse
  exact ⟨by decide +kernel, by decide +kernel, added, htrace, hcourse⟩

/-- With a time to live that no clock can count, the name of a client without pointers is set in the
cache, and the expansion fails all the same. -/
theorem expand_takes_course_overflow :
    let x : Expander := ⟨.ofSettings { pointerCacheTtl := 10 ^ 309 }, ⟨.memory, []⟩⟩
    let session := mailSession (.v4 #v[198, 51, 100, 3])
    let last := exec (x.expand session "%{p}" Letter.allChars) mailEnvironment {}
    mailEnvironment.zone.pointers "3.100.51.198.in-addr.arpa" = .absent ∧
      last.1 = .error (.duration .tooLong) ∧
      x.cachedName session mailEnvironment last.2.store = .ok (some ValidatedName.unknown) := by
  decide +kernel

end SenderPolicy.Expander
