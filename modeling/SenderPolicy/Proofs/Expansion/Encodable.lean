import SenderPolicy.Proofs.Address.Client
import SenderPolicy.Proofs.Address.Scoped
import SenderPolicy.Proofs.Cache.Redis
import SenderPolicy.Proofs.Expansion.Pieces
import SenderPolicy.Proofs.MacroString.Transformation
import SenderPolicy.Proofs.ValidatedName.Names

/-! Values that can be encoded.  Addresses, numbers and the names that lookups find are written
without surrogates, so the value of a letter holds some only if the session, the settings or the
cache brings them in. -/

namespace SenderPolicy

open SenderPolicy.Action

/-! ### Texts -/

namespace Text

variable {t u : Text} {parts : List Text}

theorem isEncodable_ofChars (cs : List Char) : (ofChars cs).isEncodable :=
  isEncodable_iff.2 isScalar_of_mem_ofChars

theorem isEncodable_of_subset (h : t.isEncodable) (hsub : u ⊆ t) : u.isEncodable :=
  isEncodable_iff.2 fun c hc => isEncodable_iff.1 h c (hsub hc)

@[simp] theorem isEncodable_append : (t ++ u).isEncodable ↔ t.isEncodable ∧ u.isEncodable := by
  simp only [isEncodable_iff, List.forall_mem_append]

theorem isEncodable_cons {c : Char} : isEncodable (.scalar c :: t) ↔ t.isEncodable := by
  simp [isEncodable_iff]

theorem isEncodable_join {separator : Char} (h : ∀ part ∈ parts, part.isEncodable) :
    (join [↑separator] parts).isEncodable := by
  refine isEncodable_iff.2 fun c hc => ?_
  rcases mem_join hc with rfl | ⟨part, hpart, hc⟩
  · rfl
  · exact isEncodable_iff.1 (h part hpart) c hc

theorem isEncodable_ofInt? {n : Int} (h : ofInt? n = some t) : t.isEncodable := by
  rw [ofInt?, Option.ite_none_right_eq_some] at h
  obtain rfl := Option.some.inj h.2
  cases n with
  | ofNat n => exact isEncodable_ofChars _
  | negSucc n => exact isEncodable_cons.2 (isEncodable_ofChars _)

theorem isScalar_mapCase {runs : List CaseRun} {c : Character} (h : c.isScalar) :
    (mapCase runs c).isScalar := by
  unfold mapCase
  cases hmap : runs.findSome? (·.map? c) with
  | none => exact h
  | some d =>
    obtain ⟨run, -, hd⟩ := List.exists_of_findSome?_eq_some hmap
    rw [CaseRun.map?, Option.ite_none_right_eq_some] at hd
    rw [Option.getD_some, ← Option.some.inj hd.2]
    rfl

theorem isEncodable_lowerChar {c : Character} (h : c.isScalar) : (lowerChar c).isEncodable := by
  unfold lowerChar
  split
  · cases c with
    | scalar c => rfl
    | surrogate index => cases h
  · split
    · rfl
    · exact isEncodable_iff.2 (List.forall_mem_singleton.2 (isScalar_mapCase h))

theorem isEncodable_lower (h : t.isEncodable) : t.lower.isEncodable := by
  have hafter (before : Text) : (lowerAfter before t).isEncodable := by
    induction t generalizing before with
    | nil => rfl
    | cons c t ih =>
      obtain ⟨hc, ht⟩ := List.forall_mem_cons.1 (isEncodable_iff.1 h)
      rw [lowerAfter, isEncodable_append]
      refine ⟨?_, ih (isEncodable_iff.2 ht) _⟩
      split
      · unfold smallSigma
        split <;> rfl
      · exact isEncodable_lowerChar hc
  exact hafter []

theorem beforeLast_subset (c : Character) (t : Text) : t.beforeLast c ⊆ t := fun _ hd =>
  List.mem_reverse.1 ((List.dropWhile_sublist _).subset
    ((List.drop_sublist _ _).subset (List.mem_reverse.1 hd)))

theorem afterLast_subset (c : Character) (t : Text) : t.afterLast c ⊆ t := fun _ hd =>
  List.mem_reverse.1 ((List.takeWhile_sublist _).subset (List.mem_reverse.1 hd))

theorem dropFinalDots_subset (t : Text) : t.dropFinalDots ⊆ t := fun _ hd =>
  List.mem_reverse.1 ((List.dropWhile_sublist _).subset (List.mem_reverse.1 hd))

end Text

/-! ### Transformed values -/

namespace Transformation

variable {m : Transformation} {value : Text}

theorem exists_transform? (h : m.delimiters ≠ []) (hvalue : value.isEncodable) :
    ∃ text, m.transform? value = .ok text := by
  refine (exists_transform?_iff h value).2 fun _ c hc => ?_
  rcases Text.mem_join hc with rfl | ⟨part, hpart, hc⟩
  · rfl
  · exact Text.isEncodable_iff.1 hvalue c (mem_of_mem_selected hpart hc)

/-- A value with surrogates is not encoded. -/
theorem exists_transform?_error (hvalue : ¬ value.isEncodable) :
    ∃ fault, transform? { urlEncode := true } value = .error (.unencodable fault) := by
  have hdelimiters : ({ urlEncode := true } : Transformation).delimiters ≠ [] := nofun
  have hjoin : Text.join ['.'] (selected { urlEncode := true } value) = value :=
    join_selected_plain value
  have hnone := mt (exists_transform?_iff hdelimiters value).1 fun h =>
    hvalue (Text.isEncodable_iff.2 (hjoin ▸ h rfl))
  rw [transform?_eq_transform hdelimiters] at hnone ⊢
  cases htransform : transform { urlEncode := true } value with
  | error fault => exact ⟨fault, rfl⟩
  | ok text => exact absurd ⟨text, by rw [htransform]; rfl⟩ hnone

end Transformation

/-! ### Addresses and names -/

namespace Address

variable {client : Address}

theorem isScalar_of_isHexDigit {c : Character} (h : isHexDigit c) : c.isScalar := by
  cases c with
  | scalar c => rfl
  | surrogate index =>
    have hcode := toNat_of_isHexDigit h
    simp only [Character.toNat] at hcode
    omega

theorem isEncodable_parts (client : Address) : ∀ part ∈ client.parts, part.isEncodable := by
  intro part hpart
  cases client with
  | v4 q =>
    obtain ⟨o, -, rfl⟩ := List.mem_map.1 hpart
    exact Text.isEncodable_ofChars _
  | v6 g scope =>
    obtain ⟨c, hc, rfl⟩ := List.mem_map.1 hpart
    have hdigit := isHexDigit_of_mem_lowerHexDigits (mem_lowerHexDigits_of_mem_nibbles hc)
    exact Text.isEncodable_iff.2 (List.forall_mem_singleton.2 (isScalar_of_isHexDigit hdigit))

theorem isEncodable_of_dotted {form : Text} (h : client.dotted = .ok form) :
    form.isEncodable := by
  rw [dotted_eq (exists_dotted_iff.1 ⟨form, h⟩)] at h
  obtain rfl := Except.ok.inj h
  exact Text.isEncodable_join client.isEncodable_parts

theorem isEncodable_toText (h : client.isScoped = false) : client.toText.isEncodable := by
  refine Text.isEncodable_iff.2 fun c hc => ?_
  cases c with
  | scalar c => rfl
  | surrogate index =>
    have hdigit : isHexDigit (.surrogate index) = false :=
      Bool.eq_false_iff.2 fun hdigit => by cases isScalar_of_isHexDigit hdigit
    match client with
    | .v4 q => exact absurd hc (not_mem_quadToText q hdigit nofun)
    | .v6 g none => exact absurd hc (not_mem_groupsToText g hdigit nofun)
    | .v6 g (some scope) => cases h

end Address

namespace DomainName

theorem isEncodable_presentByte (b : UInt8) : (presentByte b).isEncodable := by
  unfold presentByte
  dsimp only
  split
  · rfl
  · split
    · rfl
    · rw [Text.isEncodable_append, Text.isEncodable_append]
      refine ⟨⟨rfl, ?_⟩, Text.isEncodable_ofChars _⟩
      exact Text.isEncodable_iff.2 fun c hc => List.eq_of_mem_replicate hc ▸ rfl

theorem isEncodable_toText (name : DomainName) : name.toText.isEncodable := by
  unfold toText
  split
  · rfl
  · refine Text.isEncodable_join fun part hpart => ?_
    obtain ⟨label, -, rfl⟩ := List.mem_map.1 hpart
    refine Text.isEncodable_iff.2 fun c hc => ?_
    obtain ⟨b, -, hb⟩ := List.mem_flatMap.1 hc
    exact Text.isEncodable_iff.1 (isEncodable_presentByte b) c hb

end DomainName

/-! ### Validated names -/

namespace ValidatedName

variable {tuning : Tuning} {cache : Cache} {client : Address} {domain text : Text}
  {e : Environment} {s : State}

theorem isEncodable_of_names {found : List Text}
    (h : (ValidatedName.names tuning client).answer e = .ok found) :
    ∀ name ∈ found, name.isEncodable := by
  obtain ⟨reverse, pointers, count?, -, hpointers, -, rfl⟩ := answer_names_eq_ok h
  obtain ⟨targets, rfl, -⟩ := Resolution.answer_pointers_eq_ok hpointers
  intro name hname
  obtain ⟨pointer, hpointer, rfl⟩ := List.mem_map.1 hname
  have hmem : pointer ∈ targets.map DomainName.toText :=
    mem_of_mem_followed (List.mem_filter.1 hpointer).1
  obtain ⟨target, -, rfl⟩ := List.mem_map.1 hmem
  exact Text.isEncodable_of_subset target.isEncodable_toText (Text.dropFinalDots_subset _)

theorem isEncodable_choose {found : List Text} (h : ∀ name ∈ found, name.isEncodable)
    (domain : Text) : (choose found domain).isEncodable := by
  by_cases hne : found = []
  · subst hne
    rfl
  · exact h _ (choose_mem hne domain)

theorem isEncodable_of_fresh (h : (fresh tuning client domain).answer e = .ok text) :
    text.isEncodable := by
  obtain ⟨found, hfound, rfl⟩ := answer_fresh_eq_ok_iff.1 h
  exact isEncodable_choose (isEncodable_of_names hfound) domain

/-- The key of a name can be sent if the text before it can. -/
theorem isEncodable_storeKey_iff (hscope : client.isScoped = false) (hdomain : domain.isEncodable) :
    (storeKey cache client domain).isEncodable ↔ cache.space.isEncodable := by
  have hkey : (cacheKey client domain).isEncodable := by
    refine Text.isEncodable_join ?_
    simp only [List.forall_mem_cons]
    exact ⟨rfl, Address.isEncodable_toText hscope, Text.isEncodable_lower hdomain, nofun⟩
  rw [storeKey, Text.isEncodable_append, and_iff_left hkey]

/-- The name that is cached, if there is one, can be encoded. -/
def FindsEncodable (cache : Cache) (e : Environment) (store : Store) (client : Address)
    (domain : Text) : Prop :=
  ∀ text, cachedName cache e store client domain = .ok (some text) → text.isEncodable

theorem findsEncodable_of_error {store : Store} {failure : Failure}
    (h : cachedName cache e store client domain = .error failure) :
    FindsEncodable cache e store client domain := by
  intro text htext
  cases h.symm.trans htext

theorem findsEncodable_of_isMissing {store : Store} (h : IsMissing cache e store client domain) :
    FindsEncodable cache e store client domain := by
  intro text htext
  rcases h with h | h <;> cases h.symm.trans htext
  rfl

variable (hs : FindsEncodable cache e s.store client domain)

include hs

/-- A preferred name is of the cache, or it is one that lookups find. -/
theorem isEncodable_of_preferred
    (h : (exec (preferred tuning cache client domain) e s).1 = .ok text) : text.isEncodable := by
  rcases cachedName_cases cache e s.store client domain with ⟨c, cached, hhit⟩ | hmissing |
    ⟨failure, herror⟩
  · rw [(preferred_of_hit tuning hhit).1] at h
    exact Except.ok.inj h ▸ hs _ hhit
  · rw [(preferred_of_miss tuning hmissing).1] at h
    exact isEncodable_of_fresh (renewed_eq_ok_iff.1 h).1
  · rw [exec_preferred_of_error tuning herror] at h
    cases h

/-- What is cached anew is one of the names that lookups find. -/
theorem findsEncodable_preferred (hkeys : cache.backend.StoresByKey e.redis) (tuning : Tuning) :
    FindsEncodable cache e (exec (preferred tuning cache client domain) e s).2.store client
      domain := by
  rcases cachedName_cases cache e s.store client domain with ⟨c, cached, hhit⟩ | hmissing |
    ⟨failure, herror⟩
  · rw [(preferred_of_hit tuning hhit).2]
    exact hs
  · rw [(preferred_of_miss tuning hmissing).2]
    cases hfresh : (fresh tuning client domain).answer e with
    | error failure =>
      simp only [renewed, hfresh]
      exact hs
    | ok name =>
      rw [renewed_of_ok hfresh]
      rcases hkeys.stored_cases (storeKey cache client domain) name tuning.pointerCacheTtl with
        ⟨failure, hset⟩ | ⟨answer, hset⟩
      · rw [hset]
        exact hs
      · rw [hset]
        intro text hcached
        have hfind := hkeys.find?_of_found hcached
        rw [Store.find?_insert_self, Option.ite_none_right_eq_some] at hfind
        obtain rfl := Option.some.inj hfind.2
        exact isEncodable_of_fresh hfresh
  · rw [exec_preferred_of_error tuning herror]
    exact hs

end ValidatedName

/-! ### Letters -/

/-- The receiving host of a session, which settings name where the session does not. -/
def Session.hostName (settings : Settings) (session : Session) : Text :=
  match session.receivingHost with
  | some (c :: host) => c :: host
  | _ => settings.receivingHostName

/-- The texts that a session binds letters to. -/
def Session.texts (settings : Settings) (session : Session) : List Text :=
  session.sender :: session.currentDomain :: session.hostName settings :: session.heloDomain.toList

namespace Expander

variable {x : Expander} {settings : Settings} {cache : Cache} {session : Session}
  {letter : Letter} {e : Environment} {s : State} {text : Text}

/-- The name that is cached for a session, if there is one, can be encoded. -/
def FindsEncodable (x : Expander) (session : Session) (e : Environment) (store : Store) : Prop :=
  ValidatedName.FindsEncodable x.cache e store session.client session.currentDomain

theorem findsEncodable_resolve (hkeys : x.cache.backend.StoresByKey e.redis)
    (hs : x.FindsEncodable session e s.store) (letter : Letter) :
    x.FindsEncodable session e (exec (x.resolve session letter) e s).2.store := by
  by_cases hletter : letter = .validatedName
  · subst hletter
    rw [exec_resolve_validatedName]
    exact ValidatedName.findsEncodable_preferred hs hkeys _
  · rw [exec_resolve_of_ne hletter]
    exact hs

theorem resolve_receivingHost : resolve ⟨.ofSettings settings, cache⟩ session .receivingHost =
    pure (session.hostName settings) := by
  unfold resolve Session.hostName
  rcases session.receivingHost with _ | _ | ⟨c, host⟩ <;>
    simp only [Tuning.receivingHostName_ofSettings]

/-- The value of a letter holds surrogates only if a text of the session or of the cache does, or if
the client has a scope. -/
theorem isEncodable_of_resolve (hs : FindsEncodable ⟨.ofSettings settings, cache⟩ session e s.store)
    (hscope : session.client.isScoped = false)
    (htexts : ∀ text ∈ session.texts settings, text.isEncodable)
    (h : (exec (resolve ⟨.ofSettings settings, cache⟩ session letter) e s).1 = .ok text) :
    text.isEncodable := by
  have hsender : session.sender.isEncodable := htexts _ (by simp [Session.texts])
  cases letter with
  | sender =>
    obtain rfl := Except.ok.inj h
    exact hsender
  | localPart =>
    obtain rfl := Except.ok.inj h
    exact Text.isEncodable_of_subset hsender (Text.beforeLast_subset _ _)
  | senderDomain =>
    obtain rfl := Except.ok.inj h
    exact Text.isEncodable_of_subset hsender (Text.afterLast_subset _ _)
  | currentDomain =>
    obtain rfl := Except.ok.inj h
    exact htexts _ (by simp [Session.texts])
  | clientAddress =>
    rw [resolve] at h
    split at h
    · next form hform =>
      obtain rfl := Except.ok.inj h
      exact Address.isEncodable_of_dotted hform
    · cases h
  | validatedName =>
    rw [exec_resolve_validatedName] at h
    cases hpreferred : (exec (ValidatedName.preferred (.ofSettings settings) cache session.client
      session.currentDomain) e s).1 with
    | error failure => rw [hpreferred] at h; cases h
    | ok name =>
      rw [hpreferred] at h
      obtain rfl := Except.ok.inj h
      exact ValidatedName.isEncodable_of_preferred hs hpreferred
  | heloDomain =>
    rw [resolve] at h
    split at h
    · next domain hdomain =>
      obtain rfl := Except.ok.inj h
      exact htexts _ (by simp [Session.texts, hdomain])
    · cases h
  | readableAddress =>
    obtain rfl := Except.ok.inj h
    exact Address.isEncodable_toText hscope
  | receivingHost =>
    rw [resolve_receivingHost] at h
    obtain rfl := Except.ok.inj h
    exact htexts _ (by simp [Session.texts])
  | timestamp =>
    rw [resolve] at h
    split at h
    · next written hwritten =>
      obtain rfl := Except.ok.inj h
      exact Text.isEncodable_ofInt? hwritten
    · cases h
  | addressVersion =>
    obtain rfl := Except.ok.inj h
    cases session.client <;> rfl

end Expander

end SenderPolicy
