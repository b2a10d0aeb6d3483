import SenderPolicy.Proofs.Address.Compressed
import SenderPolicy.Proofs.Expansion.Failures
import SenderPolicy.Proofs.Text.Case
import SenderPolicy.Proofs.ValidatedName.Freshness

/-! The keys under which names are cached.  The parts of a key are joined by colons, which are in
the text of an IPv6 address too and may be in a domain, so a key does not always tell where the
address ends.  It does where one of the addresses that it may name is not an IPv6 address, or where
there is no colon in the domains. -/

namespace SenderPolicy

namespace Address

/-- If the text of an address goes on with a colon in that of another one, both are IPv6
addresses. -/
theorem eq_v6_of_toText_append {a b : Address} {rest : Text} (ha : a.isScoped = false)
    (hb : b.isScoped = false) (h : b.toText = a.toText ++ .scalar ':' :: rest) :
    ∃ g k, a = .v6 g none ∧ b = .v6 k none := by
  match a, b with
  | .v6 g none, .v6 k none => exact ⟨g, k, rfl, rfl⟩
  | .v6 g (some scope), b => cases ha
  | .v4 q, .v6 k (some scope) => cases hb
  | .v6 g none, .v6 k (some scope) => cases hb
  | a, .v4 q =>
    have hcolon : Character.scalar ':' ∉ q.toText := not_mem_quadToText q (by decide) (by decide)
    refine absurd ?_ hcolon
    have h : q.toText = _ := h
    rw [h]
    simp
  | .v4 q, .v6 k none =>
    have hdot : Character.scalar '.' ∉ k.toText := not_mem_groupsToText k (by decide) (by decide)
    refine absurd ?_ hdot
    have h : k.toText = q.toText ++ .scalar ':' :: rest := h
    rw [h]
    exact List.mem_append_left _ (dot_mem_quadToText q)

end Address

namespace ValidatedName

open SenderPolicy.Action

variable {tuning : Tuning} {cache : Cache} {e : Environment} {client other : Address}
  {domain target text : Text} {steps : List Step}

theorem cacheKey_eq (client : Address) (domain : Text) :
    cacheKey client domain =
      ("ptr" : Text) ++ .scalar ':' :: (client.toText ++ .scalar ':' :: domain.lower) := by
  simp [cacheKey, Cache.key, Text.join]

/-- The text of the other address begins with that of the client and a colon, and the domain is the
rest of it, a colon and the other domain. -/
def Overlap (client : Address) (domain : Text) (other : Address) (target : Text) : Prop :=
  ∃ g k rest, client = .v6 g none ∧ other = .v6 k none ∧
    k.toText = g.toText ++ .scalar ':' :: rest ∧ domain.lower = rest ++ .scalar ':' :: target.lower

theorem Overlap.colon_mem (h : Overlap client domain other target) :
    Character.scalar ':' ∈ domain := by
  obtain ⟨g, k, rest, -, -, -, hdomain⟩ := h
  refine Text.mem_of_mem_lower (by decide) ?_
  rw [hdomain]
  simp

theorem Overlap.cacheKey_eq (h : Overlap client domain other target) :
    cacheKey client domain = cacheKey other target := by
  obtain ⟨g, k, rest, rfl, rfl, htext, hdomain⟩ := h
  have hother : (Address.v6 k none).toText = (Address.v6 g none).toText ++ .scalar ':' :: rest :=
    htext
  rw [ValidatedName.cacheKey_eq, ValidatedName.cacheKey_eq, hother, hdomain]
  simp

/-- Where one address text begins with another, the keys are equal for one pair or for two that
overlap. -/
theorem same_or_overlap {more : Text} (hclient : client.isScoped = false)
    (hother : other.isScoped = false) (htext : other.toText = client.toText ++ more)
    (hrest : .scalar ':' :: domain.lower = more ++ .scalar ':' :: target.lower) :
    (client = other ∧ domain.lower = target.lower) ∨ Overlap client domain other target := by
  cases more with
  | nil =>
    rw [List.append_nil] at htext
    exact .inl ⟨Address.toText_inj hclient hother htext.symm, (List.cons.inj hrest).2⟩
  | cons c rest =>
    obtain ⟨rfl, hdomain⟩ := List.cons.inj hrest
    obtain ⟨g, k, rfl, rfl⟩ := Address.eq_v6_of_toText_append hclient hother htext
    exact .inr ⟨g, k, rest, rfl, rfl, htext, hdomain⟩

/-- Keys are equal for one pair of an address and a domain, and for pairs that overlap. -/
theorem cacheKey_eq_iff (hclient : client.isScoped = false) (hother : other.isScoped = false) :
    cacheKey client domain = cacheKey other target ↔
      (client = other ∧ domain.lower = target.lower) ∨
        Overlap client domain other target ∨ Overlap other target client domain := by
  constructor
  · intro h
    rw [cacheKey_eq, cacheKey_eq, List.append_cancel_left_eq, List.cons_inj_right,
      List.append_eq_append_iff] at h
    rcases h with ⟨more, htext, hrest⟩ | ⟨more, htext, hrest⟩
    · rcases same_or_overlap hclient hother htext hrest with hsame | hoverlap
      · exact .inl hsame
      · exact .inr (.inl hoverlap)
    · rcases same_or_overlap hother hclient htext hrest with ⟨rfl, hdomain⟩ | hoverlap
      · exact .inl ⟨rfl, hdomain.symm⟩
      · exact .inr (.inr hoverlap)
  · rintro (⟨rfl, hdomain⟩ | hoverlap | hoverlap)
    · rw [cacheKey, cacheKey, hdomain]
    · exact hoverlap.cacheKey_eq
    · exact hoverlap.cacheKey_eq.symm

/-! ### Runs -/

/-- All pairs that are asked for have addresses without a scope, and no two of them overlap. -/
structure NoOverlap (steps : List Step) : Prop where
  unscoped : ∀ client domain, .ask client domain ∈ steps → client.isScoped = false
  apart : ∀ client domain other target, .ask client domain ∈ steps → .ask other target ∈ steps →
    ¬ Overlap client domain other target

theorem NoOverlap.of_no_colon
    (h : ∀ client domain, .ask client domain ∈ steps →
      client.isScoped = false ∧ Character.scalar ':' ∉ domain) : NoOverlap steps where
  unscoped client domain hask := (h client domain hask).1
  apart client domain _ _ hask _ hoverlap := (h client domain hask).2 hoverlap.colon_mem

/-- Every call of a run is one of its steps. -/
theorem ask_mem_of_mem_run {s : State} {c : Call} (hc : c ∈ run tuning cache e s steps) :
    .ask c.client c.domain ∈ steps := by
  induction steps generalizing e s with
  | nil => cases hc
  | cons step steps ih =>
    cases step with
    | advance seconds =>
      rw [run] at hc
      split at hc
      · exact List.mem_cons_of_mem _ (ih hc)
      · exact List.mem_cons_of_mem _ (ih hc)
    | publish zone => exact List.mem_cons_of_mem _ (ih hc)
    | ask client domain =>
      rcases List.mem_cons.1 hc with rfl | hc
      · exact List.mem_cons_self
      · exact List.mem_cons_of_mem _ (ih hc)

theorem NoOverlap.keysApart (h : NoOverlap steps) (s : State) :
    KeysApart (run tuning cache e s steps) := by
  intro c hc d hd hkey
  have hcask := ask_mem_of_mem_run hc
  have hdask := ask_mem_of_mem_run hd
  rcases (cacheKey_eq_iff (h.unscoped _ _ hcask) (h.unscoped _ _ hdask)).1 hkey with
    hsame | hoverlap | hoverlap
  · exact hsame
  · exact absurd hoverlap (h.apart _ _ _ _ hcask hdask)
  · exact absurd hoverlap (h.apart _ _ _ _ hdask hcask)

/-- Where calls with one key ask for one pair, what a call returns was found for its own pair. -/
theorem exists_source_of_keysApart {calls before after : List Call} {c : Call}
    (hstores : cache.backend.StoresByKey e.redis) (hkeys : KeysApart calls)
    (hrun : run tuning cache e {} steps = calls) (hcalls : calls = before ++ c :: after)
    (hanswer : c.answer = .ok text) :
    ∃ source ∈ before ++ [c], source.client = c.client ∧
      source.domain.lower = c.domain.lower ∧ source.found tuning = .ok text := by
  have hexplained : Explained tuning cache ([] ++ before) c :=
    Sourced.run (fun _ h => absurd h List.not_mem_nil) hstores (hrun.trans hcalls)
  cases hexplained with
  | cached source cached hmem _ hkey hfound hlive hcached =>
    obtain rfl : cached = text := Except.ok.inj (hcached.symm.trans hanswer)
    have hsource : source ∈ calls := by
      rw [hcalls]
      exact List.mem_append_left _ hmem
    have hc : c ∈ calls := by
      rw [hcalls]
      simp
    obtain ⟨hclient, hdomain⟩ := hkeys source hsource c hc (List.append_cancel_left hkey)
    exact ⟨source, List.mem_append_left _ hmem, hclient, hdomain, hfound⟩
  | unserved failure _ hfailed => cases hfailed.symm.trans hanswer
  | failed failure hfound hfailed => cases hfailed.symm.trans hanswer
  | renewed found store hfound hrenewed =>
    obtain rfl := eq_of_map_eq_ok (hrenewed.symm.trans hanswer)
    exact ⟨c, by simp, rfl, rfl, hfound⟩

/-- The keys of two pairs are equal if the pairs are the same up to case or overlap, and in no other
case.  Where they overlap, a call for the one is answered with what is cached for the other; in a
run in which none do, every answer was found for the pair that was asked for. -/
theorem cacheKey_told_apart (tuning : Tuning) (cache : Cache) (e : Environment) :
    (∀ client domain other target, client.isScoped = false → other.isScoped = false →
      (cacheKey client domain = cacheKey other target ↔
        (client = other ∧ domain.lower = target.lower) ∨
          Overlap client domain other target ∨ Overlap other target client domain)) ∧
    (∀ client domain other target, Overlap client domain other target →
      Character.scalar ':' ∈ domain) ∧
    (∀ client domain other target (s : State) c cached,
      Overlap client domain other target ∨ Overlap other target client domain →
      cachedName cache e s.store other target = .ok (some (c :: cached)) →
      (exec (preferred tuning cache client domain) e s).1 = .ok (c :: cached)) ∧
    ∀ steps, NoOverlap steps → cache.backend.StoresByKey e.redis → ∀ before c after text,
      run tuning cache e {} steps = before ++ c :: after → c.answer = .ok text →
      ∃ source ∈ before ++ [c], source.client = c.client ∧
        source.domain.lower = c.domain.lower ∧ source.found tuning = .ok text := by
  refine ⟨?_, ?_, ?_, ?_⟩
  · intro client domain other target hclient hother
    exact cacheKey_eq_iff hclient hother
  · intro client domain other target hoverlap
    exact hoverlap.colon_mem
  · intro client domain other target s c cached hoverlap hfind
    have hkey : storeKey cache client domain = storeKey cache other target := by
      rw [storeKey, storeKey]
      rcases hoverlap with hoverlap | hoverlap
      · rw [hoverlap.cacheKey_eq]
      · rw [hoverlap.cacheKey_eq]
    rw [cachedName, ← hkey] at hfind
    exact (preferred_of_hit tuning hfind).1
  · intro steps hsteps hstores before c after text hrun hanswer
    exact exists_source_of_keysApart hstores (hsteps.keysApart {}) rfl hrun hanswer

/-- A zone in which only the address 1::2:3 has a pointer, to a name with this address. -/
def overlapZone : Zone where
  pointers := Zone.replace Zone.empty.pointers
    (Address.groupsPointerName #v[1, 0, 0, 0, 0, 0, 2, 3])
    (.answer [.ofStrings ["mail", "example"]])
  ipv4Hosts := Zone.empty.ipv4Hosts
  ipv6Hosts := Zone.replace Zone.empty.ipv6Hosts "mail.example"
    (.answer ⟨["1::2:3"], some (.integer 60)⟩)
  texts := Zone.empty.texts

/-- The calls for 1::2:3 and then for 1::2 on a new store. -/
def overlapCalls (domain target : Text) : List Call :=
  run (.ofSettings {}) ⟨.memory, []⟩ ⟨overlapZone, .ok {}, Clock.zero, .documented⟩ {}
    [.ask (.v6 #v[1, 0, 0, 0, 0, 0, 2, 3] none) domain,
      .ask (.v6 #v[1, 0, 0, 0, 0, 0, 0, 2] none) target]

/-- Without colons in the domains, the address that has no name is not given one. -/
theorem cacheKey_told_apart_plain :
    (overlapCalls "x" "b.c").map Call.answer = [.ok ("mail.example" : Text), .ok unknown] ∧
      ∀ before c after text, overlapCalls "x" "b.c" = before ++ c :: after → c.answer = .ok text →
        ∃ source ∈ before ++ [c], source.client = c.client ∧
          source.domain.lower = c.domain.lower ∧ source.found (.ofSettings {}) = .ok text := by
  refine ⟨by decide +kernel, ?_⟩
  refine (cacheKey_told_apart (.ofSettings {}) ⟨.memory, []⟩ _).2.2.2 _ (.of_no_colon ?_)
    (Backend.storesByKey_memory _)
  intro client domain hask
  rcases List.mem_pair.1 hask with hask | hask
  · obtain ⟨rfl, rfl⟩ := Step.ask.inj hask
    exact ⟨rfl, by decide⟩
  · obtain ⟨rfl, rfl⟩ := Step.ask.inj hask
    exact ⟨rfl, by decide⟩

/-- With a colon it is given the name of the other address, under one key for both. -/
theorem cacheKey_overlap :
    Address.ofClient? ("1::2" : Text) = some (.v6 #v[1, 0, 0, 0, 0, 0, 0, 2] none) ∧
      Address.ofClient? ("1::2:3" : Text) = some (.v6 #v[1, 0, 0, 0, 0, 0, 2, 3] none) ∧
      (Session.withDomain ⟨"a@b.c", "b.c", .v4 #v[192, 0, 2, 1], none, none, 1⟩
        "3:x").currentDomain = ("3:x" : Text) ∧
      Address.v6 #v[1, 0, 0, 0, 0, 0, 0, 2] none ≠ .v6 #v[1, 0, 0, 0, 0, 0, 2, 3] none ∧
      cacheKey (.v6 #v[1, 0, 0, 0, 0, 0, 0, 2] none) "3:x" =
        cacheKey (.v6 #v[1, 0, 0, 0, 0, 0, 2, 3] none) "x" ∧
      (overlapCalls "x" "3:x").map Call.answer =
        [.ok ("mail.example" : Text), .ok ("mail.example" : Text)] ∧
      (overlapCalls "x" "3:x").map (Call.found (.ofSettings {})) =
        [.ok ("mail.example" : Text), .ok unknown] := by
  decide +kernel

end ValidatedName

end SenderPolicy
