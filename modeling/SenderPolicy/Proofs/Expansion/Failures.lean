import Mathlib.Control.Monad.Basic
import SenderPolicy.Expansion
import SenderPolicy.Proofs.Expansion.Encodable
import SenderPolicy.Proofs.MacroString.Faults
import SenderPolicy.Proofs.MacroString.Tokens
import SenderPolicy.Proofs.ValidatedName.Names

/-! The failures of an expansion.  Once a macro string has been scanned, it fails to expand in the
way that one of its letters fails, or because the value of one cannot be encoded; `LetterFault` and
`MacroFault` tell all these ways.  Callers are told of two of them: a letter has no value, or a
lookup of pointers fails.  Where the settings have been validated, four things that no check
excludes lead to other failures: an address with a scope, a cache that fails, a time with too many
digits to write, and surrogates in a text of the session.  A cache in memory fails if no clock can
count its time to live, and a database if it refuses that, is sent surrogates or is not reached. -/

namespace SenderPolicy

open SenderPolicy.Action

namespace Address

theorem exists_pointerName? {client : Address} (h : client.isScoped = false) :
    ∃ name, client.pointerName? = some name := by
  match client with
  | .v4 q => exact ⟨_, rfl⟩
  | .v6 g none =>
    cases hmapped : g.mapped? with
    | none => exact ⟨groupsPointerName g, by rw [pointerName?, hmapped]⟩
    | some q => exact ⟨quadPointerName q, by rw [pointerName?, hmapped]⟩
  | .v6 g (some scope) => cases h

end Address

variable {e : Environment} {process settings : Settings} {redis : Redis} {cache : Cache}
  {session : Session} {p : Failure → Prop}

/-- What a session, settings and a cache need to have so that nothing fails that callers are not
told of: an address without a scope, a cache that serves at all times and for all zones, a time that
can be written, and texts that can be encoded. -/
structure Suited (settings process : Settings) (redis : Redis) (cache : Cache) (session : Session) :
    Prop where
  noScope : session.client.isScoped = false
  served : ∀ e : Environment, e.settings = .ok process → e.redis = redis →
    ValidatedName.IsServed (.ofSettings settings) cache session.client session.currentDomain e
  writable : (Text.ofInt? session.timestamp).isSome
  encodable : ∀ text ∈ session.texts settings, text.isEncodable

/-- The failures that callers are told of. -/
def Failure.IsForeseen (failure : Failure) : Prop :=
  failure.kind = .unbound ∨ failure.kind = .unresolved

/-- The failures of letters, with what leads to each. -/
inductive LetterFault (x : Expander) (session : Session) (e : Environment) : Failure → Prop
  | unbound : session.heloDomain = none →
      LetterFault x session e (.expansion { cause := .unbound .heloDomain })
  | unresolved (error : ResolutionError) :
      LetterFault x session e (.expansion { cause := .unresolved error })
  | addressForm {fault : GroupsFault} : session.client.dotted = .error fault →
      LetterFault x session e (.addressForm session.client.toText fault)
  | noPointerName : session.client.pointerName? = none → LetterFault x session e .noPointerName
  | pointerCount {fault : Tuning.Fault} : x.tuning.pointerCount? = .error fault →
      LetterFault x session e (.tuning fault)
  | settings {faults : List Settings.Fault} : e.settings = .error faults →
      LetterFault x session e (.settings faults)
  | cacheGet {store : Store} {fault : RedisFault} :
      ValidatedName.cachedName x.cache e store session.client session.currentDomain =
        .error (.redis fault) →
      LetterFault x session e (.redis fault)
  | cacheSet {store : Store} {name : Text} {fault : RedisFault} :
      ValidatedName.IsMissing x.cache e store session.client session.currentDomain →
      (ValidatedName.fresh x.tuning session.client session.currentDomain).answer e = .ok name →
      (x.cache.backend.stored e store
        (ValidatedName.storeKey x.cache session.client session.currentDomain) name
        x.tuning.pointerCacheTtl).1 = .error (.redis fault) →
      LetterFault x session e (.redis fault)
  | deadline {store : Store} {name : Text} {fault : DurationFault} :
      ValidatedName.IsMissing x.cache e store session.client session.currentDomain →
      (ValidatedName.fresh x.tuning session.client session.currentDomain).answer e = .ok name →
      (x.cache.backend.stored e store
        (ValidatedName.storeKey x.cache session.client session.currentDomain) name
        x.tuning.pointerCacheTtl).1 = .error (.duration fault) →
      LetterFault x session e (.duration fault)
  | receivingHost {fault : Tuning.Fault} : x.tuning.receivingHostName = .error fault →
      LetterFault x session e (.tuning fault)
  | timestamp : Text.ofInt? session.timestamp = none → LetterFault x session e .longNumber

/-- The failures of macros, with what leads to each: a macro fails as its letter does, or because
the value of its letter cannot be encoded. -/
inductive MacroFault (x : Expander) (session : Session) (e : Environment) : Failure → Prop
  | letter {failure : Failure} : LetterFault x session e failure → MacroFault x session e failure
  | unencodable {token : Token} {value : Text} {s : State} {fault : EncodeFault} :
      (exec (x.resolve session token.letter) e s).1 = .ok value →
      token.transform value = .error fault →
      MacroFault x session e (.transformation (.unencodable fault))

/-- The kinds of failure in which an expansion can end. -/
def Kind.ofExpansion : List Kind :=
  [.invalidEscape, .unterminated, .malformed, .unbound, .unresolved, .validation, .badValue,
    .badType, .overflow, .missingAttribute, .unencodable, .badAddressValue, .badNameText,
    .unreachable, .lateAnswer, .refused, .badArgument]

theorem Failure.kind_ofScan_mem (value : Text) (fault : ScanFault) :
    (Failure.ofScan value fault).kind ∈ Kind.ofExpansion := by
  cases fault with
  | defect d position =>
    rcases Failure.kind_ofScan_defect value d position with h | h | h <;> rw [h] <;>
      exact List.mem_of_elem_eq_true rfl
  | longCount digits => exact List.mem_of_elem_eq_true rfl

theorem Failure.kind_tuning_mem (fault : Tuning.Fault) :
    (Failure.tuning fault).kind ∈ Kind.ofExpansion := by
  cases fault <;> exact List.mem_of_elem_eq_true rfl

theorem Failure.kind_redis_mem (fault : RedisFault) :
    (Failure.redis fault).kind ∈ Kind.ofExpansion := by
  cases fault <;> exact List.mem_of_elem_eq_true rfl

theorem LetterFault.kind_mem {x : Expander} {failure : Failure}
    (h : LetterFault x session e failure) : failure.kind ∈ Kind.ofExpansion := by
  cases h with
  | pointerCount => exact Failure.kind_tuning_mem _
  | receivingHost => exact Failure.kind_tuning_mem _
  | cacheGet => exact Failure.kind_redis_mem _
  | cacheSet => exact Failure.kind_redis_mem _
  | @deadline _ _ fault => cases fault <;> exact List.mem_of_elem_eq_true rfl
  | _ => exact List.mem_of_elem_eq_true rfl

theorem MacroFault.kind_mem {x : Expander} {failure : Failure}
    (h : MacroFault x session e failure) : failure.kind ∈ Kind.ofExpansion := by
  cases h with
  | letter hletter => exact hletter.kind_mem
  | unencodable => exact List.mem_of_elem_eq_true rfl

/-- In a suited session, the failures of letters are those that callers are told of. -/
theorem LetterFault.isForeseen (h : Suited settings process e.redis cache session)
    (he : e.settings = .ok process) {failure : Failure}
    (hfault : LetterFault ⟨.ofSettings settings, cache⟩ session e failure) :
    failure.IsForeseen := by
  cases hfault with
  | unbound => exact .inl rfl
  | unresolved => exact .inr rfl
  | addressForm hform =>
    rw [Address.dotted_eq h.noScope] at hform
    cases hform
  | noPointerName hname =>
    obtain ⟨name, hsome⟩ := Address.exists_pointerName? h.noScope
    rw [hname] at hsome
    cases hsome
  | pointerCount hcount => cases hcount
  | settings hsettings =>
    rw [he] at hsettings
    cases hsettings
  | @cacheGet store _ hget =>
    obtain ⟨name?, hfound⟩ := (h.served e he rfl).finds store
    cases hget.symm.trans hfound
  | cacheSet hmissing hfresh hset =>
    cases hset.symm.trans ((h.served e he rfl).keeps _ _ hmissing hfresh)
  | deadline hmissing hfresh hset =>
    cases hset.symm.trans ((h.served e he rfl).keeps _ _ hmissing hfresh)
  | receivingHost hhost =>
    rw [Tuning.receivingHostName_ofSettings] at hhost
    cases hhost
  | timestamp hlong =>
    have hwritable := h.writable
    rw [hlong] at hwritable
    cases hwritable

namespace Expander

theorem failsOnly_resolve (x : Expander) (session : Session) (e : Environment) (letter : Letter) :
    FailsOnly (LetterFault x session e) e (x.resolve session letter) := by
  cases letter with
  | sender => exact failsOnly_pure _
  | localPart => exact failsOnly_pure _
  | senderDomain => exact failsOnly_pure _
  | currentDomain => exact failsOnly_pure _
  | clientAddress =>
    rw [resolve]
    split
    · exact failsOnly_pure _
    · next fault hform => exact failsOnly_throw (.addressForm hform)
  | validatedName =>
    have hnames : FailsOnly
        (fun failure => (∃ error, failure = .resolution error) ∨ LetterFault x session e failure) e
        (ValidatedName.names x.tuning session.client) :=
      ValidatedName.failsOnly_names (fun _ h => .inr (.settings h)) (fun error => .inl ⟨error, rfl⟩)
        (fun h => .inr (.noPointerName h)) fun _ h => .inr (.pointerCount h)
    -- The letter turns the failure of a lookup into one of its own and hands on the others.
    refine (ValidatedName.failsOnly_preferred hnames ?_ ?_).tryCatch fun failure hfailure => ?_
    · intro store failure hget
      obtain ⟨fault, rfl⟩ := Backend.exists_of_found_eq_error hget
      exact .inr (.cacheGet hget)
    · intro store name failure hmissing hfresh hset
      rcases Backend.exists_of_stored_eq_error hset with ⟨fault, rfl⟩ | ⟨fault, rfl⟩
      · exact .inr (.deadline hmissing hfresh hset)
      · exact .inr (.cacheSet hmissing hfresh hset)
    split
    · next error => exact failsOnly_throw (.unresolved error)
    · next hother =>
      rcases hfailure with ⟨error, rfl⟩ | hfault
      · exact absurd rfl (hother error)
      · exact failsOnly_throw hfault
  | heloDomain =>
    rw [resolve]
    split
    · exact failsOnly_pure _
    · next hnone => exact failsOnly_throw (.unbound hnone)
  | readableAddress => exact failsOnly_pure _
  | receivingHost =>
    rw [resolve]
    split
    · exact failsOnly_pure _
    · split
      · exact failsOnly_pure _
      · next fault hhost => exact failsOnly_throw (.receivingHost hhost)
  | timestamp =>
    rw [resolve]
    split
    · exact failsOnly_pure _
    · next hlong => exact failsOnly_throw (.timestamp hlong)
  | addressVersion => exact failsOnly_pure _

/-- What has been scanned fails only as its macros do. -/
theorem failsOnly_expand_of_scan {letters : List Character} {value : Text} {pieces : List Piece}
    (hscan : MacroString.scan letters value = .ok pieces) (x : Expander) (session : Session)
    (e : Environment) : FailsOnly (MacroFault x session e) e (x.expand session value letters) := by
  unfold expand
  rw [hscan]
  refine (FailsOnly.mapM fun piece hpiece => ?_).bind fun _ => failsOnly_pure _
  cases piece with
  | literal text => exact failsOnly_pure text
  | token token =>
    intro s failure hfailure
    rw [exec_expandPiece_token, transformed] at hfailure
    cases hresolve : (exec (x.resolve session token.letter) e s).1 with
    | error other =>
      rw [hresolve] at hfailure
      obtain rfl : other = failure := Except.error.inj hfailure
      exact .letter (failsOnly_resolve x session e token.letter s other hresolve)
    | ok raw =>
      have hdelimiters := MacroString.delimiters_ne_nil_of_scan hscan hpiece
      rw [hresolve, Except.bind, Transformation.transform?_eq_transform hdelimiters] at hfailure
      cases htransform : token.transform raw with
      | error fault =>
        rw [htransform] at hfailure
        obtain rfl := Except.error.inj hfailure
        exact .unencodable hresolve htransform
      | ok text =>
        rw [htransform] at hfailure
        cases hfailure

/-- In a suited session, the failures of macros are those that callers are told of.  The values can
be encoded while the name that is cached can, and what is cached after a piece still can. -/
theorem isForeseen_of_expandPieces {pieces : List Piece} {s : State} {failure : Failure}
    (h : Suited settings process e.redis cache session) (he : e.settings = .ok process)
    (hkeys : cache.backend.StoresByKey e.redis)
    (hs : FindsEncodable ⟨.ofSettings settings, cache⟩ session e s.store)
    (hdelimiters : ∀ token, .token token ∈ pieces → token.delimiters ≠ [])
    (hfailure : (exec (expandPieces ⟨.ofSettings settings, cache⟩ session pieces) e s).1 =
      .error failure) : failure.IsForeseen := by
  induction pieces generalizing s with
  | nil => cases hfailure
  | cons piece pieces ih =>
    have hlater {middle : State} {text : Text}
        (hmiddle : FindsEncodable ⟨.ofSettings settings, cache⟩ session e middle.store)
        (hfailure : (exec (expandPieces ⟨.ofSettings settings, cache⟩ session pieces >>=
          fun later => pure (text ++ later)) e middle).1 = .error failure) :
        failure.IsForeseen := by
      refine ih hmiddle (fun token htoken => hdelimiters token (List.mem_cons_of_mem _ htoken)) ?_
      rw [exec_bind] at hfailure
      rcases hrest : exec (expandPieces ⟨.ofSettings settings, cache⟩ session pieces) e middle with
        ⟨other | later, last⟩
      · rw [hrest] at hfailure
        exact hfailure
      · rw [hrest] at hfailure
        cases hfailure
    rw [expandPieces_cons] at hfailure
    cases piece with
    | literal text => exact hlater hs hfailure
    | token token =>
      have hmiddle := findsEncodable_resolve hkeys hs token.letter
      rw [exec_bind, exec_expandPiece_token] at hfailure
      cases hresolve :
        (exec (resolve ⟨.ofSettings settings, cache⟩ session token.letter) e s).1 with
      | error other =>
        rw [hresolve] at hfailure
        obtain rfl : other = failure := Except.error.inj hfailure
        exact (failsOnly_resolve _ session e token.letter s other hresolve).isForeseen h he
      | ok raw =>
        have hraw := isEncodable_of_resolve hs h.noScope h.encodable hresolve
        obtain ⟨text, htext⟩ :=
          Transformation.exists_transform? (hdelimiters token List.mem_cons_self) hraw
        rw [hresolve, transformed, Except.bind, htext] at hfailure
        exact hlater hmiddle hfailure

/-! ### Failures that callers are not told of -/

/-- A string that is one macro expands as the macro does. -/
theorem exec_expand_of_token {letters : List Character} {value : Text} {token : Token}
    (hscan : MacroString.scan letters value = .ok [.token token]) (x : Expander)
    (session : Session) (e : Environment) (s : State) :
    exec (x.expand session value letters) e s =
      (transformed token (exec (x.resolve session token.letter) e s).1,
        (exec (x.resolve session token.letter) e s).2) := by
  rw [expand_of_scan hscan, expandPieces_cons, exec_bind, exec_expandPiece_token]
  cases transformed token (exec (x.resolve session token.letter) e s).1 with
  | error failure => rfl
  | ok text => exact congrArg (fun t => (Except.ok t, _)) (List.append_nil text)

/-- The macro that is a letter alone. -/
def bare (letter : Letter) : Text := ['%', '{', letter.char, '}']

/-- The macro that is a capital letter alone. -/
def bareEncoded (letter : Letter) : Text := ['%', '{', letter.char.toUpper, '}']

theorem scan_bare (letter : Letter) :
    MacroString.scan Letter.allChars (bare letter) = .ok [.token { letter }] := by
  cases letter <;> rfl

theorem scan_bareEncoded (letter : Letter) :
    MacroString.scan Letter.allChars (bareEncoded letter) =
      .ok [.token { letter, urlEncode := true }] := by
  cases letter <;> rfl

/-- No name is known, and nothing is cached. -/
def blank (process : Settings) (redis : Redis) : Environment :=
  ⟨.empty, .ok process, Clock.zero, redis⟩

/-- A session with neither a HELO domain nor a receiving host. -/
def bareSession : Session where
  sender := "a@b.c"
  currentDomain := "b.c"
  client := .v4 #v[198, 51, 100, 3]
  heloDomain := none
  receivingHost := none
  timestamp := 1

/-- A string that is scanned and whose expansion ends in a failure that callers are not told of. -/
def Surprises (x : Expander) (session : Session) (value : Text) (e : Environment) (s : State) :
    Prop :=
  ∃ pieces failure, MacroString.scan Letter.allChars value = .ok pieces ∧
    (exec (x.expand session value Letter.allChars) e s).1 = .error failure ∧ ¬failure.IsForeseen

theorem surprises_of_resolve {x : Expander} {letter : Letter} {s : State} (failure : Failure)
    (h : (exec (x.resolve session letter) e s).1 = .error failure)
    (hunforeseen : ¬failure.IsForeseen) : x.Surprises session (bare letter) e s := by
  refine ⟨_, failure, scan_bare letter, ?_, hunforeseen⟩
  rw [exec_expand_of_token (scan_bare letter), h]
  rfl

theorem surprises_of_isScoped (h : session.client.isScoped) (x : Expander) (e : Environment)
    (s : State) : x.Surprises session (bare .clientAddress) e s := by
  cases hform : session.client.dotted with
  | ok form =>
    rw [Address.exists_dotted_iff.1 ⟨form, hform⟩] at h
    cases h
  | error fault =>
    refine surprises_of_resolve (.addressForm session.client.toText fault) ?_ ?_
    · rw [resolve, hform]
      rfl
    · rintro (hkind | hkind) <;> cases hkind

theorem surprises_of_long_timestamp (h : Text.ofInt? session.timestamp = none) (x : Expander)
    (e : Environment) (s : State) : x.Surprises session (bare .timestamp) e s := by
  refine surprises_of_resolve .longNumber ?_ ?_
  · rw [resolve, h]
    rfl
  · rintro (hkind | hkind) <;> cases hkind

/-- A value with surrogates is not encoded. -/
theorem surprises_of_not_isEncodable {x : Expander} {letter : Letter} {value : Text} {s : State}
    (hresolve : (exec (x.resolve session letter) e s).1 = .ok value) (h : ¬value.isEncodable) :
    x.Surprises session (bareEncoded letter) e s := by
  obtain ⟨fault, hfault⟩ := Transformation.exists_transform?_error h
  refine ⟨_, .transformation (.unencodable fault), scan_bareEncoded letter, ?_, ?_⟩
  · rw [exec_expand_of_token (scan_bareEncoded letter), hresolve, transformed, Except.bind, hfault]
    rfl
  · rintro (hkind | hkind) <;> cases hkind

/-- A text of the session is the value of a letter, which is not encoded if it holds surrogates. -/
theorem surprises_of_mem_texts {text : Text} (hmem : text ∈ session.texts settings)
    (h : ¬text.isEncodable) (cache : Cache) (e : Environment) (s : State) :
    ∃ letter, Surprises ⟨.ofSettings settings, cache⟩ session (bareEncoded letter) e s := by
  simp only [Session.texts, List.mem_cons, Option.mem_toList] at hmem
  rcases hmem with rfl | rfl | rfl | hhelo
  · exact ⟨.sender, surprises_of_not_isEncodable rfl h⟩
  · exact ⟨.currentDomain, surprises_of_not_isEncodable rfl h⟩
  · exact ⟨.receivingHost, surprises_of_not_isEncodable (by rw [resolve_receivingHost]; rfl) h⟩
  · exact ⟨.heloDomain, surprises_of_not_isEncodable (by rw [resolve, hhelo]; rfl) h⟩

/-- A name that is cached with surrogates is not encoded. -/
theorem surprises_of_not_findsEncodable {x : Expander} {s : State}
    (h : ¬x.FindsEncodable session e s.store) :
    x.Surprises session (bareEncoded .validatedName) e s := by
  unfold FindsEncodable ValidatedName.FindsEncodable at h
  push Not at h
  obtain ⟨text, hcached, htext⟩ := h
  have hhit : ∃ c cached, text = c :: cached := by
    cases text with
    | nil => exact absurd rfl htext
    | cons c cached => exact ⟨c, cached, rfl⟩
  obtain ⟨c, cached, rfl⟩ := hhit
  refine surprises_of_not_isEncodable ?_ htext
  rw [exec_resolve_validatedName, (ValidatedName.preferred_of_hit x.tuning hcached).1]
  rfl

/-- If the search for the name fails in a way that callers are not told of, so does `p` alone. -/
theorem surprises_of_preferred {x : Expander} {s : State} {failure : Failure}
    (h : (exec (ValidatedName.preferred x.tuning x.cache session.client session.currentDomain) e
      s).1 = .error failure)
    (hunforeseen : ¬(raised failure).IsForeseen) :
    x.Surprises session (bare .validatedName) e s := by
  refine surprises_of_resolve (raised failure) ?_ hunforeseen
  rw [exec_resolve_validatedName, h]
  rfl

theorem not_isForeseen_of_redis (fault : RedisFault) : ¬(Failure.redis fault).IsForeseen := by
  cases fault <;> rintro (hkind | hkind) <;> cases hkind

theorem not_isForeseen_of_duration (fault : DurationFault) :
    ¬(Failure.duration fault).IsForeseen := by
  cases fault <;> rintro (hkind | hkind) <;> cases hkind

/-- A cache that does not find, or that does not keep what is found anew. -/
theorem surprises_of_not_isServed (h : ¬ValidatedName.IsServed (.ofSettings settings) cache
      session.client session.currentDomain e) :
    ∃ s : State, FindsEncodable ⟨.ofSettings settings, cache⟩ session e s.store ∧
      Surprises ⟨.ofSettings settings, cache⟩ session (bare .validatedName) e s := by
  by_contra hnone
  push Not at hnone
  refine h ⟨fun store => ?_, fun store name hmissing hfresh => ?_⟩
  · cases hget : ValidatedName.cachedName cache e store session.client session.currentDomain with
    | ok name? => exact ⟨name?, rfl⟩
    | error failure =>
      obtain ⟨fault, rfl⟩ := Backend.exists_of_found_eq_error hget
      have hfailed : (exec (ValidatedName.preferred (.ofSettings settings) cache session.client
          session.currentDomain) e ⟨store, []⟩).1 = .error (.redis fault) := by
        rw [ValidatedName.exec_preferred_of_error _ hget]
      have hunforeseen : ¬(raised (.redis fault)).IsForeseen := not_isForeseen_of_redis fault
      exact absurd
        (surprises_of_preferred (x := ⟨.ofSettings settings, cache⟩) hfailed hunforeseen)
        (hnone ⟨store, []⟩ (ValidatedName.findsEncodable_of_error hget))
  · rcases hset : (cache.backend.stored e store (ValidatedName.storeKey cache session.client
      session.currentDomain) name (Tuning.ofSettings settings).pointerCacheTtl).1 with failure | _
    · have hrenewed : (exec (ValidatedName.preferred (.ofSettings settings) cache session.client
          session.currentDomain) e ⟨store, []⟩).1 = .error failure := by
        rw [(ValidatedName.preferred_of_miss (s := ⟨store, []⟩) _ hmissing).1,
          ValidatedName.renewed]
        simp only [hfresh, hset]
        rfl
      have hunforeseen : ¬(raised failure).IsForeseen := by
        rcases Backend.exists_of_stored_eq_error hset with ⟨fault, rfl⟩ | ⟨fault, rfl⟩
        · exact not_isForeseen_of_duration fault
        · exact not_isForeseen_of_redis fault
      exact absurd
        (surprises_of_preferred (x := ⟨.ofSettings settings, cache⟩) hrenewed hunforeseen)
        (hnone ⟨store, []⟩ (ValidatedName.findsEncodable_of_isMissing hmissing))
    · rfl

/-! ### Caches that serve -/

theorem answer_fresh_blank (h : session.client.isScoped = false) :
    (ValidatedName.fresh (.ofSettings settings) session.client session.currentDomain).answer
      (blank process redis) = .ok ValidatedName.unknown := by
  obtain ⟨name, hname⟩ := Address.exists_pointerName? h
  have hpointers : (Resolution.pointers name).answer (blank process redis) = .ok [] := rfl
  have hfollowed : ValidatedName.followed (some settings.maxPointerNames) [] = [] := by
    simp [ValidatedName.followed]
  rw [ValidatedName.answer_fresh, ValidatedName.answer_names hname, hpointers]
  change ((ValidatedName.confirmed session.client
    (ValidatedName.followed (some settings.maxPointerNames) [])).answer _).map _ = _
  rw [hfollowed]
  rfl

theorem suited_memory_iff (hmemory : cache.backend = .memory) :
    Suited settings process redis cache session ↔
      session.client.isScoped = false ∧ Binary64.isInRange settings.pointerCacheTtl ∧
        (Text.ofInt? session.timestamp).isSome ∧
        ∀ text ∈ session.texts settings, text.isEncodable := by
  obtain ⟨_, space⟩ := cache
  subst hmemory
  constructor
  · intro h
    refine ⟨h.noScope, Decidable.not_not.1 fun hrange => ?_, h.writable, h.encodable⟩
    have hkept := (h.served (blank process redis) rfl rfl).keeps [] _
      ValidatedName.isMissing_memory_nil (answer_fresh_blank h.noScope)
    rw [Tuning.ofSettings, Backend.stored_of_not_isInRange hrange] at hkept
    cases hkept
  · rintro ⟨hscope, hrange, hwritable, hencodable⟩
    refine ⟨hscope, fun e he hredis => ⟨fun store => ⟨_, rfl⟩, fun store name _ _ => ?_⟩, hwritable,
      hencodable⟩
    obtain ⟨deadline, hdeadline⟩ := Store.exists_deadline hrange e.clock
    rw [Tuning.ofSettings, Backend.stored_memory hdeadline]

theorem suited_redis_iff {url : Text} (hbackend : cache.backend = .redis url)
    (hreached : redis.IsReached) :
    Suited settings process redis cache session ↔
      session.client.isScoped = false ∧
        (1 ≤ settings.pointerCacheTtl ∧ settings.pointerCacheTtl ≤ Redis.longestTtl) ∧
        (Text.ofInt? session.timestamp).isSome ∧
        (∀ text ∈ session.texts settings, text.isEncodable) ∧ cache.space.isEncodable := by
  obtain ⟨_, space⟩ := cache
  subst hbackend
  -- The key of the session's name can be sent if the text before it can.
  have hkey (hscope : session.client.isScoped = false)
      (hencodable : ∀ text ∈ session.texts settings, text.isEncodable) :
      (ValidatedName.storeKey ⟨.redis url, space⟩ session.client
        session.currentDomain).isEncodable ↔ space.isEncodable :=
    ValidatedName.isEncodable_storeKey_iff hscope (hencodable _ (by simp [Session.texts]))
  constructor
  · intro h
    have hserved := h.served (blank process redis) rfl rfl
    obtain ⟨name?, hget⟩ := hserved.finds []
    refine ⟨h.noScope, Decidable.not_not.1 fun hrefused => ?_, h.writable, h.encodable,
      (hkey h.noScope h.encodable).1 (Decidable.not_not.1 fun hunsent => ?_)⟩
    · have hmissing := ValidatedName.isMissing_nil_of_ok
        (fun _ _ => hreached.toStoresByKey) hget
      have hkept := hserved.keeps [] _ hmissing (answer_fresh_blank h.noScope)
      obtain ⟨fault, hset⟩ := hreached.refuses Clock.zero
        (ValidatedName.storeKey ⟨.redis url, space⟩ session.client session.currentDomain)
        ValidatedName.unknown settings.pointerCacheTtl hrefused
      rw [Backend.stored, blank, Tuning.ofSettings, hset] at hkept
      cases hkept
    · obtain ⟨fault, herror⟩ := hreached.get_unsent Clock.zero _ hunsent
      rw [ValidatedName.cachedName, Backend.found, blank, herror] at hget
      cases hget
  · rintro ⟨hscope, ⟨hpos, hlong⟩, hwritable, hencodable, hspace⟩
    have hsent := (hkey hscope hencodable).2 hspace
    refine ⟨hscope, fun e he hredis => ⟨fun store => ?_, fun store name _ hfresh => ?_⟩, hwritable,
      hencodable⟩
    · exact ⟨_, Backend.found_eq (fun _ _ => ⟨hredis ▸ hreached, hsent⟩) store⟩
    · rw [Backend.stored, Tuning.ofSettings, hredis, hreached.set_of_takes
        ⟨hsent, ValidatedName.isEncodable_of_fresh hfresh, hpos, hlong⟩]
      rfl

/-- Expansion of what has been scanned fails in the ways that callers are told of only, for every
zone and whatever is stored, exactly if the address has no scope, the cache serves, the time can be
written, and the texts of the session can be encoded; what is stored matters only if the name that
is cached for the session cannot be encoded, and then the macro that encodes it fails in another
way.  A cache in memory serves exactly if a clock can count the time to live, and a database that is
reached exactly if it does not refuse that and the text before its keys can be sent. -/
theorem expand_isForeseen_iff (settings process : Settings) (redis : Redis) (cache : Cache)
    (session : Session) (hkeys : cache.backend.StoresByKey redis) :
    ((∀ letters value pieces e s failure, e.settings = .ok process → e.redis = redis →
      FindsEncodable ⟨.ofSettings settings, cache⟩ session e s.store →
      MacroString.scan letters value = .ok pieces →
      (exec (expand ⟨.ofSettings settings, cache⟩ session value letters) e s).1 = .error failure →
      failure.IsForeseen) ↔
    Suited settings process redis cache session) ∧
    (∀ e s, ¬FindsEncodable ⟨.ofSettings settings, cache⟩ session e s.store →
      Surprises ⟨.ofSettings settings, cache⟩ session (bareEncoded .validatedName) e s) ∧
    (cache.backend = .memory →
      (Suited settings process redis cache session ↔
        session.client.isScoped = false ∧ Binary64.isInRange settings.pointerCacheTtl ∧
          (Text.ofInt? session.timestamp).isSome ∧
          ∀ text ∈ session.texts settings, text.isEncodable)) ∧
    ∀ url, cache.backend = .redis url → redis.IsReached →
      (Suited settings process redis cache session ↔
        session.client.isScoped = false ∧
          (1 ≤ settings.pointerCacheTtl ∧ settings.pointerCacheTtl ≤ Redis.longestTtl) ∧
          (Text.ofInt? session.timestamp).isSome ∧
          (∀ text ∈ session.texts settings, text.isEncodable) ∧ cache.space.isEncodable) := by
  refine ⟨⟨?_, ?_⟩, fun e s => surprises_of_not_findsEncodable, suited_memory_iff,
    fun url => suited_redis_iff⟩
  · intro h
    have hnone {value : Text} {e : Environment} {s : State} (he : e.settings = .ok process)
        (hredis : e.redis = redis)
        (hfinds : FindsEncodable ⟨.ofSettings settings, cache⟩ session e s.store) :
        ¬Surprises ⟨.ofSettings settings, cache⟩ session value e s := by
      rintro ⟨pieces, failure, hscan, hfailure, hsurprise⟩
      exact hsurprise (h _ _ _ e s failure he hredis hfinds hscan hfailure)
    have hempty :
        FindsEncodable ⟨.ofSettings settings, cache⟩ session (blank process redis) [] := by
      intro text hcached
      cases Backend.StoresByKey.find?_of_found (e := blank process redis) hkeys hcached
    constructor
    case noScope =>
      exact Bool.eq_false_iff.2 fun hscope =>
        hnone (s := {}) rfl rfl hempty (surprises_of_isScoped hscope _ _ _)
    case served =>
      intro e he hredis
      by_contra hserved
      obtain ⟨s, hfinds, hsurprise⟩ := surprises_of_not_isServed hserved
      exact hnone he hredis hfinds hsurprise
    case writable =>
      exact Option.isSome_iff_ne_none.2 fun hlong =>
        hnone (s := {}) rfl rfl hempty (surprises_of_long_timestamp hlong _ _ _)
    case encodable =>
      intro text hmem
      by_contra hunsent
      obtain ⟨letter, hsurprise⟩ := surprises_of_mem_texts hmem hunsent cache
        (blank process redis) {}
      exact hnone rfl rfl hempty hsurprise
  · rintro h letters value pieces e s failure he rfl hfinds hscan hfailure
    rw [expand_of_scan hscan] at hfailure
    exact isForeseen_of_expandPieces h he hkeys hfinds
      (fun token htoken => MacroString.delimiters_ne_nil_of_scan hscan htoken) hfailure

/-- A session with surrogates in no text is suited to a database that takes a time to live of an
hour, and not to one that is to take none. -/
theorem expand_isForeseen_iff_documented :
    let cache : Cache := ⟨.redis "redis://localhost:6379/0", "spf"⟩
    cache.backend.StoresByKey .documented ∧
      Suited { pointerCacheTtl := 3600 } {} .documented cache bareSession ∧
      ¬Suited { pointerCacheTtl := 0 } {} .documented cache bareSession := by
  intro cache
  have hkeys : cache.backend.StoresByKey .documented := fun _ _ => Redis.storesByKey_documented
  obtain ⟨-, -, -, hhour⟩ := expand_isForeseen_iff { pointerCacheTtl := 3600 } {} .documented cache
    bareSession hkeys
  obtain ⟨-, -, -, hnone⟩ := expand_isForeseen_iff { pointerCacheTtl := 0 } {} .documented cache
    bareSession hkeys
  refine ⟨hkeys, (hhour _ rfl Redis.isReached_documented).2 ?_, fun hsuited => ?_⟩
  · decide +kernel
  · obtain ⟨-, ⟨hpos, -⟩, -⟩ := (hnone _ rfl Redis.isReached_documented).1 hsuited
    exact absurd hpos (by decide)

/-- The request of a check whose client has the address `fe80::1` in a network of the host. -/
def scopedRequest : CheckRequest where
  sender := "a@b.c"
  currentDomain := "b.c"
  client := "fe80::1%eth0"
  time := some (.seconds 1)

def scopedSession : Session where
  sender := "a@b.c"
  currentDomain := "b.c"
  client := .v6 #v[0xfe80, 0, 0, 0, 0, 0, 0, 1] (some "eth0")
  heloDomain := none
  receivingHost := none
  timestamp := 1

/-- Such a check is started, and then neither its address nor its validated name can be expanded. -/
theorem expand_scoped_not_isForeseen :
    Session.create scopedRequest 0 = .ok scopedSession ∧
      (exec (expand ⟨.ofSettings {}, ⟨.memory, []⟩⟩ scopedSession (bare .clientAddress)
        Letter.allChars) (blank {} .documented) {}).1 =
          .error (.addressForm "fe80::1%eth0" (.notHex "1%eth0")) ∧
      (exec (expand ⟨.ofSettings {}, ⟨.memory, []⟩⟩ scopedSession (bare .validatedName)
        Letter.allChars) (blank {} .documented) {}).1 = .error .noPointerName ∧
      ¬ (Failure.addressForm "fe80::1%eth0" (.notHex "1%eth0")).IsForeseen ∧
      ¬ Failure.noPointerName.IsForeseen := by
  refine ⟨by decide +kernel, by decide +kernel, by decide +kernel, ?_, ?_⟩
  · rintro (hkind | hkind) <;> cases hkind
  · rintro (hkind | hkind) <;> cases hkind

end Expander

end SenderPolicy
