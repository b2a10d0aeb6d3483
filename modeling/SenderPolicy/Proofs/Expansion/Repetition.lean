import SenderPolicy.Proofs.Expansion.Effects

/-! Repeated lookups of the preferred name.  While no time passes, the name that a call returns is
in the cache for the next one, so that this one asks nothing; but the empty name is taken for none,
and every call looks it up anew.  An expansion may call as often as it has letters for the name. -/

namespace SenderPolicy

open SenderPolicy.Action

namespace ValidatedName

variable {e : Environment} {tuning : Tuning} {cache : Cache} {client : Address}
  {name domain other text : Text} {s after : State} {ttl : Int}

/-- A call that returns a name found it in the cache, or else found it anew and stored it. -/
theorem hit_or_stored (hmemory : cache.backend = .memory)
    (hcall : exec (preferred tuning cache client domain) e s = (.ok text, after)) :
    (text ≠ [] ∧ cachedName cache e s.store client domain = .ok (some text) ∧
        after.store = s.store) ∨
      IsMissing cache e s.store client domain ∧
        (fresh tuning client domain).answer e = .ok text ∧
        ∃ deadline, Store.deadline? e.clock tuning.pointerCacheTtl = .ok deadline ∧
          after.store = s.store.insert (storeKey cache client domain) ⟨text, deadline⟩ := by
  rcases cachedName_cases cache e s.store client domain with ⟨c, cached, hhit⟩ | hmissing |
    ⟨failure, hfailure⟩
  · rw [exec_preferred_of_hit tuning hhit] at hcall
    cases hcall
    exact .inl ⟨List.cons_ne_nil c cached, hhit, rfl⟩
  · obtain ⟨hresult, hstore⟩ := preferred_of_miss tuning hmissing
    rw [hcall] at hresult hstore
    obtain ⟨hfresh, hset⟩ := renewed_eq_ok_iff.1 hresult.symm
    rw [renewed_of_ok hfresh] at hstore
    rw [hmemory] at hset hstore
    cases hdeadline : Store.deadline? e.clock tuning.pointerCacheTtl with
    | error fault =>
      rw [Backend.stored, hdeadline] at hset
      cases hset
    | ok deadline =>
      rw [Backend.stored_memory hdeadline] at hstore
      exact .inr ⟨hmissing, hfresh, deadline, rfl, hstore⟩
  · rw [cachedName_of_memory hmemory] at hfailure
    cases hfailure

/-- The name that a call returns is found in the store after it, while no time passes. -/
theorem cachedName_of_preferred (hmemory : cache.backend = .memory)
    (httl : tuning.pointerCacheTtl = .integer ttl) (hnonneg : 0 ≤ ttl)
    (hclock : e.clock.toRat?.isSome)
    (hcall : exec (preferred tuning cache client domain) e s = (.ok text, after)) :
    cachedName cache e after.store client domain = .ok (some text) := by
  rcases hit_or_stored hmemory hcall with ⟨-, hhit, hstore⟩ | ⟨-, -, deadline, hdeadline, hstore⟩
  · rw [hstore, hhit]
  · rw [httl] at hdeadline
    rw [cachedName_of_memory hmemory, hstore, Store.find?_insert_self,
      if_pos (Cache.isLive_of_deadline? hclock hnonneg hdeadline text)]

theorem cachedName_congr {store : Store} (h : other.lower = domain.lower) :
    cachedName cache e store client other = cachedName cache e store client domain := by
  rw [cachedName, cachedName, storeKey_congr h]

/-- A call that returns the empty name has looked it up, and so does the next one. -/
theorem preferred_again_of_empty (hmemory : cache.backend = .memory)
    (hsame : other.lower = domain.lower)
    (hcall : exec (preferred tuning cache client domain) e s = (.ok [], after))
    (hfind : cachedName cache e after.store client domain = .ok (some [])) :
    ∃ name last, Asks [name] s after ∧
      exec (preferred tuning cache client other) e after = (.ok [], last) ∧
      Asks [name] after last := by
  rcases hit_or_stored hmemory hcall with ⟨hne, -⟩ | ⟨hmissing, hfresh, deadline, hdeadline, -⟩
  · exact absurd rfl hne
  · have hempty : IsMissing cache e after.store client other :=
      .inr ((cachedName_congr hsame).trans hfind)
    obtain ⟨found, hnames, -⟩ := answer_fresh_eq_ok_iff.1 hfresh
    obtain ⟨name, pointers, count?, hname, -⟩ := answer_names_eq_ok hnames
    have hasks := asks_preferred_of_miss tuning hmissing
    have hagain := asks_preferred_of_miss tuning hempty
    rw [hname] at hasks hagain
    rw [hcall] at hasks
    refine ⟨name, _, hasks, Prod.ext ?_ rfl, hagain⟩
    rw [(preferred_of_miss tuning hempty).1, renewed_eq_ok_iff, answer_fresh_congr hsame, hmemory,
      Backend.stored_memory hdeadline]
    exact ⟨hfresh, rfl⟩

/-- The next call for the same domain returns the same name, and it asks nothing exactly if this is
not empty. -/
theorem preferred_again (hmemory : cache.backend = .memory)
    (httl : tuning.pointerCacheTtl = .integer ttl) (hnonneg : 0 ≤ ttl)
    (hclock : e.clock.toRat?.isSome) (hsame : other.lower = domain.lower)
    (hcall : exec (preferred tuning cache client domain) e s = (.ok text, after)) :
    ∃ added last, exec (preferred tuning cache client other) e after = (.ok text, last) ∧
      last.trace = after.trace ++ added ∧ ((∀ question, .query question ∉ added) ↔ text ≠ []) := by
  have hfind := cachedName_of_preferred hmemory httl hnonneg hclock hcall
  cases text with
  | nil =>
    obtain ⟨name, last, -, hagain, added, htrace, hasked⟩ :=
      preferred_again_of_empty hmemory hsame hcall hfind
    have hquery : .query ⟨.pointer, name⟩ ∈ added :=
      Event.query_mem_of_pointersAsked (hasked ▸ List.mem_cons_self)
    exact ⟨added, last, hagain, htrace, iff_of_false (fun hnone => hnone _ hquery) (absurd rfl)⟩
  | cons c cached =>
    have hhit : cachedName cache e after.store client other = .ok (some (c :: cached)) :=
      (cachedName_congr hsame).trans hfind
    refine ⟨_, _, exec_preferred_of_hit tuning hhit, rfl, ?_⟩
    exact iff_of_true (fun question hquestion => by simp at hquestion) (List.cons_ne_nil c cached)

end ValidatedName

namespace Expander

variable {x : Expander} {session : Session} {e : Environment} {s : State} {ttl : Int}

/-! ### Expansions -/

/-- A name that is cached is not empty. -/
theorem preferred_ne_empty (h : ¬ x.IsMissing session e s.store) :
    (exec (ValidatedName.preferred x.tuning x.cache session.client
      session.currentDomain) e s).1 ≠ .ok [] := by
  rcases cached_or_unserved h with ⟨c, cached, hhit⟩ | ⟨fault, hfault⟩
  · rw [ValidatedName.exec_preferred_of_hit x.tuning hhit]
    nofun
  · rw [ValidatedName.exec_preferred_of_error x.tuning hfault]
    nofun

section Memory

variable (hmemory : x.cache.backend = .memory)
  (httl : x.tuning.pointerCacheTtl = .integer ttl) (hnonneg : 0 ≤ ttl)
  (hclock : e.clock.toRat?.isSome)

include hmemory httl hnonneg hclock

/-- The step lemma: unless the letter stands for the empty name, it is looked up with one question
for pointers at most, and with none if it is cached; and it is cached then. -/
theorem asks_resolve
    (hname : (exec (ValidatedName.preferred x.tuning x.cache session.client
      session.currentDomain) e s).1 ≠ .ok []) :
    ∃ names : List Text, Asks names s (exec (x.resolve session .validatedName) e s).2 ∧
      names.length ≤ 1 ∧ (¬ x.IsMissing session e s.store → names = []) ∧
      ∀ text, (exec (x.resolve session .validatedName) e s).1 = .ok text →
        ¬ x.IsMissing session e (exec (x.resolve session .validatedName) e s).2.store := by
  by_cases hmissing : x.IsMissing session e s.store
  · refine ⟨_, asks_resolve_of_missing hmissing, Option.length_toList_le, absurd hmissing, ?_⟩
    rw [exec_resolve_validatedName]
    rcases hcall : exec (ValidatedName.preferred x.tuning x.cache session.client
      session.currentDomain) e s with ⟨failure | found, after⟩
    · nofun
    · intro text _ hlost
      have hfind := ValidatedName.cachedName_of_preferred hmemory httl hnonneg hclock hcall
      rw [hcall] at hname
      rcases hlost with hlost | hlost
      · cases hfind.symm.trans hlost
      · cases hfind.symm.trans hlost
        exact hname rfl
  · refine ⟨[], asks_resolve_of_not_missing hmissing, Nat.zero_le 1, fun _ => rfl, ?_⟩
    rcases cached_or_unserved hmissing with ⟨c, text, hhit⟩ | ⟨fault, hfault⟩
    · rw [exec_resolve_of_cached hhit]
      exact fun _ _ => hmissing
    · rw [exec_resolve_of_unserved hfault]
      nofun

/-- The run lemma: unless the name is empty, one question for pointers is asked at most for all the
letters of a string. -/
theorem asks_expandPieces {pieces : List Piece}
    (hname : (exec (ValidatedName.preferred x.tuning x.cache session.client
      session.currentDomain) e s).1 ≠ .ok []) :
    ∃ names : List Text, Asks names s (exec (x.expandPieces session pieces) e s).2 ∧
      names.length ≤ 1 ∧ (¬ x.IsMissing session e s.store → names = []) := by
  induction pieces generalizing s with
  | nil => exact ⟨[], .refl s, Nat.zero_le 1, fun _ => rfl⟩
  | cons piece pieces ih =>
    cases piece with
    | literal text =>
      rw [(ended_expandPieces_literal x session e text pieces s).2]
      exact ih hname
    | token token =>
      by_cases hletter : token.letter = .validatedName
      · obtain ⟨names, hasks, hlength, hcached, hfound⟩ :=
          asks_resolve hmemory httl hnonneg hclock hname
        rw [← hletter] at hasks hfound
        rcases hresolve : exec (x.resolve session token.letter) e s with ⟨result, middle⟩
        rw [hresolve] at hasks hfound
        cases hresolved : transformed token result with
        | error failure =>
          rw [exec_expandPieces_of_transformed_error hresolved hresolve pieces]
          exact ⟨names, hasks, hlength, hcached⟩
        | ok text =>
          obtain ⟨found, rfl, -⟩ := exists_of_transformed hresolved
          have hmiddle : ¬ x.IsMissing session e middle.store := hfound found rfl
          obtain ⟨later, hrest, -, hnone⟩ := ih (preferred_ne_empty hmiddle)
          obtain rfl := hnone hmiddle
          have hboth := hasks.trans hrest
          rw [List.append_nil] at hboth
          rw [(ended_expandPieces_of_transformed_ok hresolved hresolve pieces).2]
          exact ⟨names, hboth, hlength, hcached⟩
      · have hresolve : exec (x.resolve session token.letter) e s = _ :=
          exec_resolve_of_ne hletter s
        cases hresolved : transformed token ((x.resolve session token.letter).answer e) with
        | error failure =>
          rw [exec_expandPieces_of_transformed_error hresolved hresolve pieces]
          exact ⟨[], .refl s, Nat.zero_le 1, fun _ => rfl⟩
        | ok text =>
          rw [(ended_expandPieces_of_transformed_ok hresolved hresolve pieces).2]
          exact ih hname

theorem asks_expand
    (hname : (exec (ValidatedName.preferred x.tuning x.cache session.client
      session.currentDomain) e s).1 ≠ .ok []) (letters : List Character) (value : Text) :
    ∃ names : List Text, Asks names s (exec (x.expand session value letters) e s).2 ∧
      names.length ≤ 1 := by
  cases hscan : MacroString.scan letters value with
  | ok pieces =>
    rw [expand_of_scan hscan]
    obtain ⟨names, hasks, hlength, -⟩ := asks_expandPieces hmemory httl hnonneg hclock hname
    exact ⟨names, hasks, hlength⟩
  | error fault =>
    rw [exec_expand_of_fault hscan]
    refine ⟨[], ⟨_, rfl, ?_⟩, Nat.zero_le 1⟩
    unfold rejection
    split <;> rfl

/-- Where the name is empty, two letters for it ask for pointers twice. -/
theorem asks_expand_twice
    (hname : (exec (ValidatedName.preferred x.tuning x.cache session.client
      session.currentDomain) e s).1 = .ok []) :
    ∃ name, Asks [name, name] s
      (exec (x.expand session "%\x7bp\x7d%\x7bp\x7d" Letter.allChars) e s).2 := by
  have hscan : MacroString.scan Letter.allChars "%\x7bp\x7d%\x7bp\x7d" =
    .ok [.token { letter := .validatedName }, .token { letter := .validatedName }] := rfl
  rcases hcall : exec (ValidatedName.preferred x.tuning x.cache session.client
    session.currentDomain) e s with ⟨result, middle⟩
  rw [hcall] at hname
  obtain rfl : result = .ok [] := hname
  have hfind := ValidatedName.cachedName_of_preferred hmemory httl hnonneg hclock hcall
  obtain ⟨name, last, hasks, hagain, hasksAgain⟩ :=
    ValidatedName.preferred_again_of_empty hmemory rfl hcall hfind
  have hfirst : exec (x.resolve session .validatedName) e s = (.ok [], middle) := by
    rw [exec_resolve_validatedName, hcall]
    rfl
  have hsecond : exec (x.resolve session .validatedName) e middle = (.ok [], last) := by
    rw [exec_resolve_validatedName, hagain]
    rfl
  have hempty : transformed { letter := .validatedName } (.ok []) = .ok [] := rfl
  rw [expand_of_scan hscan, (ended_expandPieces_of_transformed_ok hempty hfirst _).2,
    (ended_expandPieces_of_transformed_ok hempty hsecond _).2, expandPieces_nil, exec_pure]
  exact ⟨name, hasks.trans hasksAgain⟩

/-- A string is expanded with one question for pointers at most, whatever it is, exactly if the
name of the session is not empty. -/
theorem asks_once_iff :
    (∀ letters value, ∃ added,
      (exec (x.expand session value letters) e s).2.trace = s.trace ++ added ∧
      (Event.pointersAsked added).length ≤ 1) ↔
    (exec (ValidatedName.preferred x.tuning x.cache session.client session.currentDomain) e s).1 ≠
      .ok [] := by
  constructor
  · intro honce hname
    obtain ⟨added, htrace, hle⟩ := honce Letter.allChars "%\x7bp\x7d%\x7bp\x7d"
    obtain ⟨name, htwice⟩ := asks_expand_twice hmemory httl hnonneg hclock hname
    rw [← htwice.unique ⟨added, htrace, rfl⟩] at hle
    exact absurd hle (Nat.not_succ_le_self 1)
  · intro hname letters value
    obtain ⟨names, ⟨added, htrace, rfl⟩, hlength⟩ :=
      asks_expand hmemory httl hnonneg hclock hname letters value
    exact ⟨added, htrace, hlength⟩

end Memory

/-- While no time passes, a call for the domain of an earlier one, in any case, returns the same
name, and it asks nothing exactly if this is not empty.  An expansion asks for pointers once at
most, whatever its string is, exactly if the name of its session is not empty. -/
theorem repeated_lookup_exact (x : Expander) (e : Environment) (ttl : Int)
    (hmemory : x.cache.backend = .memory) (httl : x.tuning.pointerCacheTtl = .integer ttl)
    (hnonneg : 0 ≤ ttl) (hclock : e.clock.toRat?.isSome) :
    (∀ client domain other s text after, other.lower = domain.lower →
      exec (ValidatedName.preferred x.tuning x.cache client domain) e s = (.ok text, after) →
      ∃ added last,
        exec (ValidatedName.preferred x.tuning x.cache client other) e after = (.ok text, last) ∧
        last.trace = after.trace ++ added ∧ ((∀ question, .query question ∉ added) ↔ text ≠ [])) ∧
    ∀ session s,
      (∀ letters value, ∃ added,
        (exec (x.expand session value letters) e s).2.trace = s.trace ++ added ∧
        (Event.pointersAsked added).length ≤ 1) ↔
      (exec (ValidatedName.preferred x.tuning x.cache session.client session.currentDomain) e s).1 ≠
        .ok [] := by
  constructor
  · intro client domain other s text after hsame hcall
    exact ValidatedName.preferred_again hmemory httl hnonneg hclock hsame hcall
  · intro session s
    exact asks_once_iff hmemory httl hnonneg hclock

/-- The host that is found for one domain is returned for the same domain in other letters, without
a question; and no string of its session asks for pointers twice. -/
theorem repeated_lookup_exact_mail :
    let session := mailSession (.v4 #v[192, 0, 2, 1])
    let call (domain : Text) (s : State) :=
      exec (ValidatedName.preferred mailExpander.tuning mailExpander.cache session.client domain)
        mailEnvironment s
    (call "Example" {}).1 = .ok ("mail.example" : Text) ∧
      (∃ added last, call "eXample" (call "Example" {}).2 = (.ok ("mail.example" : Text), last) ∧
        last.trace = (call "Example" {}).2.trace ++ added ∧ ∀ question, .query question ∉ added) ∧
      ∀ letters value, ∃ added,
        (exec (mailExpander.expand session value letters) mailEnvironment {}).2.trace =
          [] ++ added ∧ (Event.pointersAsked added).length ≤ 1 := by
  intro session call
  have hfirst : (call "Example" {}).1 = .ok ("mail.example" : Text) := by decide +kernel
  obtain ⟨hrepeat, honce⟩ := repeated_lookup_exact mailExpander mailEnvironment 300 rfl rfl
    (by decide) (by decide +kernel)
  refine ⟨hfirst, ?_, ?_⟩
  · have hcall : call "Example" {} = (.ok ("mail.example" : Text), (call "Example" {}).2) := by
      rw [← hfirst]
    have hsame : Text.lower "eXample" = Text.lower "Example" := by decide
    obtain ⟨added, last, hagain, htrace, hnone⟩ := hrepeat _ _ _ _ _ _ hsame hcall
    exact ⟨added, last, hagain, htrace, hnone.2 nofun⟩
  · refine (honce session {}).2 ?_
    have hname : (call session.currentDomain {}).1 = .ok ("mail.example" : Text) := by
      decide +kernel
    rw [hname]
    nofun

/-- A client whose one pointer is the root has the empty name, which is looked up by every call and
for every letter. -/
theorem repeated_lookup_root :
    let e := ValidatedName.soleEnvironment [] "."
    let session := mailSession (.v4 #v[192, 0, 2, 1])
    let call (s : State) :=
      exec (ValidatedName.preferred mailExpander.tuning mailExpander.cache session.client
        session.currentDomain) e s
    let questions : List Question := [⟨.pointer, "1.2.0.192.in-addr.arpa"⟩, ⟨.ipv4Host, "."⟩]
    DomainName.fault? [] = none ∧ (call {}).1 = .ok [] ∧
      (call {}).2.trace.filterMap question? = questions ∧
      (call (call {}).2).1 = .ok [] ∧
      (call (call {}).2).2.trace.filterMap question? = questions ++ questions ∧
      (exec (mailExpander.expand session "%\x7bp\x7d%\x7bp\x7d" Letter.allChars) e
        {}).2.trace.filterMap question? = questions ++ questions := by
  decide +kernel

end Expander

end SenderPolicy
