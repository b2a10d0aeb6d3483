import Mathlib.Control.Monad.Basic
import SenderPolicy.Proofs.Address.Written
import SenderPolicy.Proofs.Dns.Presentation
import SenderPolicy.Proofs.ValidatedName.Names

/-! The name that is returned for a client and the name that was confirmed.  They are the same but
for the dots at the end of the latter, which are dropped without another lookup. -/

namespace SenderPolicy.ValidatedName

open SenderPolicy.Action

variable {e : Environment} {tuning : Tuning} {cache : Cache} {client : Address}
  {name text domain r : Text} {n : Int} {targets : List DomainName} {deadline : Option Binary64}

theorem followed_of_nonneg (h : 0 ≤ n) (names : List Text) :
    followed (some n) names = names.take n.toNat := by
  simp [followed, h]

theorem pointerCount?_of_integer (h : tuning.maxPointerNames = .integer n) :
    tuning.pointerCount? = .ok (some n) := by
  rw [Tuning.pointerCount?, h]

/-- The validated names are the confirmed ones of the targets of the first pointers, without the
dots at their ends. -/
theorem exists_of_mem_names {found : List Text} (hcount : tuning.maxPointerNames = .integer n)
    (hn : 0 ≤ n) (h : (names tuning client).answer e = .ok found) (hr : r ∈ found) :
    ∃ name targets, client.pointerName? = some name ∧ e.zone.pointers name = .answer targets ∧
      ∃ target ∈ targets.take n.toNat,
        HasAddress e client target.toText ∧ r = target.toText.dropFinalDots := by
  obtain ⟨name, pointers, count?, hname, hpointers, hcount?, rfl⟩ := answer_names_eq_ok h
  obtain ⟨pointer, hmem, rfl⟩ := List.mem_map.1 hr
  obtain ⟨hfollowed, hconfirms⟩ := List.mem_filter.1 hmem
  rw [pointerCount?_of_integer hcount] at hcount?
  obtain rfl := Except.ok.inj hcount?
  obtain ⟨targets, rfl, htargets⟩ := Resolution.answer_pointers_eq_ok hpointers
  rw [followed_of_nonneg hn, ← List.map_take] at hfollowed
  obtain ⟨target, htarget, rfl⟩ := List.mem_map.1 hfollowed
  rcases htargets with htargets | rfl
  · exact ⟨name, targets, hname, htargets, target, htarget, (confirms_iff _ _).1 hconfirms, rfl⟩
  · simp at htarget

/-- The returned name is a confirmed one without the dots at its end. -/
theorem exists_of_preferred (hkeys : cache.backend.StoresByKey e.redis)
    (hcount : tuning.maxPointerNames = .integer n) (hn : 0 ≤ n)
    (h : (exec (preferred tuning cache client domain) e {}).1 = .ok r) (hr : r ≠ unknown) :
    ∃ name targets, client.pointerName? = some name ∧ e.zone.pointers name = .answer targets ∧
      ∃ target ∈ targets.take n.toNat,
        HasAddress e client target.toText ∧ r = target.toText.dropFinalDots := by
  have hfresh := fresh_of_preferred hkeys h
  rw [answer_fresh] at hfresh
  cases hnames : (names tuning client).answer e with
  | error failure => rw [hnames] at hfresh; cases hfresh
  | ok found =>
    rw [hnames] at hfresh
    obtain rfl : choose found domain = r := Except.ok.inj hfresh
    have hfound : found ≠ [] := by
      rintro rfl
      exact hr (choose_nil domain)
    exact exists_of_mem_names hcount hn hnames (choose_mem hfound domain)

/-! ### The name that is returned -/

def withHosts (e : Environment) (ipv4Hosts ipv6Hosts : Text → Outcome (RecordSet Text)) :
    Environment :=
  { e with zone := { e.zone with ipv4Hosts, ipv6Hosts } }

/-- Hosts of which only `name` has an address, which is written as `text`. -/
def soleHost (name text : Text) : Text → Outcome (RecordSet Text) :=
  Zone.replace Zone.empty.ipv4Hosts name (.answer ⟨[text], some (.integer 0)⟩)

theorem readRecords_soleHost (name text other : Text) :
    Resolution.readRecords .ok (soleHost name text other) =
      .ok (if other = name then [text] else [], .integer 0) := by
  rw [soleHost, Zone.replace]
  split <;> rfl

theorem answer_isConfirmed_soleHost (htext : Address.ofText? text = some client)
    (name other : Text) :
    (isConfirmed client other).answer (withHosts e (soleHost name text) (soleHost name text)) =
      .ok (other == name) := by
  have hhosts : (Resolution.hosts client other).answer
      (withHosts e (soleHost name text) (soleHost name text)) =
        .ok (if other = name then [text] else [], .integer 0) := by
    cases client with
    | v4 q =>
      show (Resolution.records _ _
        (Resolution.readRecords .ok (soleHost name text other))).answer _ = _
      rw [readRecords_soleHost]
      rfl
    | v6 g scope =>
      show (Resolution.records _ _
        (Resolution.readRecords .ok (soleHost name text other))).answer _ = _
      rw [readRecords_soleHost]
      rfl
  rw [isConfirmed_eq, (Resolution.usesNoCache_hosts _ _).answer_bind
    fun _ => usesNoCache_isAmong _ _ _, hhosts]
  simp only [Except.bind, answer_isAmong]
  by_cases h : other = name <;> simp [h, htext]

/-- Where only the text of one target has the address of the client, that text without the dots at
its end is returned. -/
theorem preferred_soleHost {target : DomainName} (hkeys : cache.backend.StoresByKey e.redis)
    (hcount : tuning.maxPointerNames = .integer n)
    (hn : 0 ≤ n) (hname : client.pointerName? = some name)
    (htargets : e.zone.pointers name = .answer targets) (htarget : target ∈ targets.take n.toNat)
    (htext : Address.ofText? text = some client)
    (hserved : IsServed tuning cache client domain
      (withHosts e (soleHost target.toText text) (soleHost target.toText text))) :
    (exec (preferred tuning cache client domain)
        (withHosts e (soleHost target.toText text) (soleHost target.toText text)) {}).1 =
      .ok target.toText.dropFinalDots := by
  refine preferred_of_fresh hkeys hserved ?_
  generalize he : withHosts e (soleHost target.toText text) (soleHost target.toText text) = sole
  have hconfirmed (other : Text) : (isConfirmed client other).answer sole =
      .ok (other == target.toText) := he ▸ answer_isConfirmed_soleHost htext _ _
  have hconfirms (other : Text) : confirms sole client other = (other == target.toText) := by
    rw [confirms, hconfirmed]
    rfl
  have hpointers : (Resolution.pointers name).answer sole = .ok (targets.map DomainName.toText) :=
    Resolution.answer_pointers_of_answer (he ▸ htargets)
  have hnames : (names tuning client).answer sole = _ := answer_names hname
  rw [hpointers, pointerCount?_of_integer hcount] at hnames
  change _ = (confirmed client (followed (some n) (targets.map DomainName.toText))).answer sole
    at hnames
  rw [followed_of_nonneg hn, answer_confirmed fun other _ => ⟨_, hconfirmed other⟩] at hnames
  generalize hfound : List.map Text.dropFinalDots _ = found at hnames
  have hmem : target.toText.dropFinalDots ∈ found := by
    rw [← hfound, ← List.map_take]
    refine List.mem_map_of_mem (List.mem_filter.2 ⟨List.mem_map_of_mem htarget, ?_⟩)
    rw [hconfirms, beq_self_eq_true]
  have hall : ∀ r ∈ found, r = target.toText.dropFinalDots := by
    intro r hr
    rw [← hfound] at hr
    obtain ⟨other, hother, rfl⟩ := List.mem_map.1 hr
    have heq := (List.mem_filter.1 hother).2
    rw [hconfirms, beq_iff_eq] at heq
    rw [heq]
  rw [answer_fresh, hnames]
  exact congrArg Except.ok (hall _ (choose_mem (List.ne_nil_of_mem hmem) domain))

/-- The text of a name that ends in a dot is not itself without that, and what is left of it is not
the name of clients without one. -/
theorem dropFinalDots_of_endsInDot {target : DomainName} (h : target.EndsInDot) :
    target.toText.dropFinalDots ≠ target.toText ∧ target.toText.dropFinalDots ≠ unknown := by
  rcases DomainName.toText_of_endsInDot h with htext | ⟨t, htext⟩
  · rw [htext]
    decide
  · have hleft :
        Text.dropFinalDots (t ++ [.scalar '\x5c', .scalar '.']) = t ++ [.scalar '\x5c'] := by
      simp [Text.dropFinalDots, Text.dropTrailing]
    rw [htext, hleft]
    refine ⟨fun h => ?_, fun h => ?_⟩
    · have hlength := congrArg List.length h
      rw [List.length_append, List.length_append] at hlength
      simp only [List.length_cons, List.length_nil] at hlength
      omega
    · have hlast := congrArg List.getLast? h
      rw [List.getLast?_concat, show unknown.getLast? = some (.scalar 'n') by decide] at hlast
      cases hlast

/-- A published name that is confirmed: `r` is the text of one of `targets`, and it has the address
of the client. -/
def IsConfirmedTarget (e : Environment) (client : Address) (targets : List DomainName) (r : Text) :
    Prop :=
  ∃ target ∈ targets, target.toText = r ∧ HasAddress e client r

/-- The name that a call on the empty store returns is a confirmed one without the dots at its end.
It is itself published and confirmed, whatever the addresses of hosts are, exactly if none of the
names that are followed is the root or ends in a dot.  This takes a cache that serves, as in memory
it does where clocks can count the time to live. -/
theorem preferred_confirmed (tuning : Tuning) (cache : Cache) (client : Address) (e : Environment)
    (hkeys : cache.backend.StoresByKey e.redis) (n : Int)
    (hcount : tuning.maxPointerNames = .integer n) (hn : 0 ≤ n) :
    (∀ domain r, (exec (preferred tuning cache client domain) e {}).1 = .ok r → r ≠ unknown →
      ∃ name targets, client.pointerName? = some name ∧ e.zone.pointers name = .answer targets ∧
        ∃ target ∈ targets.take n.toNat,
          HasAddress e client target.toText ∧ r = target.toText.dropFinalDots) ∧
    ∀ name targets, client.pointerName? = some name →
      e.zone.pointers name = .answer targets →
      (∀ target ∈ targets, DomainName.fault? target = none) →
      (∀ ipv4Hosts ipv6Hosts domain,
        IsServed tuning cache client domain (withHosts e ipv4Hosts ipv6Hosts)) →
      ((∀ ipv4Hosts ipv6Hosts domain r,
          (exec (preferred tuning cache client domain) (withHosts e ipv4Hosts ipv6Hosts) {}).1 =
            .ok r → r ≠ unknown →
          IsConfirmedTarget (withHosts e ipv4Hosts ipv6Hosts) client (targets.take n.toNat) r) ↔
        ∀ target ∈ targets.take n.toNat, ¬ target.EndsInDot) := by
  refine ⟨fun domain r => exists_of_preferred hkeys hcount hn, ?_⟩
  intro name targets hname htargets hformed hserved
  constructor
  · intro h target htarget hdot
    obtain ⟨text, htext⟩ := Address.exists_ofText? hname
    obtain ⟨hne, hknown⟩ := dropFinalDots_of_endsInDot hdot
    obtain ⟨other, -, -, haddress⟩ := h _ _ [] _
      (preferred_soleHost hkeys hcount hn hname htargets htarget htext (hserved _ _ _)) hknown
    have hconfirms := (confirms_iff client _).2 haddress
    rw [confirms, answer_isConfirmed_soleHost htext] at hconfirms
    exact hne (beq_iff_eq.1 hconfirms)
  · intro h ipv4Hosts ipv6Hosts domain r hresult hr
    obtain ⟨found, others, hfound, hothers, target, htarget, haddress, rfl⟩ :=
      exists_of_preferred (e := withHosts e ipv4Hosts ipv6Hosts) hkeys hcount hn hresult hr
    obtain rfl : name = found := Option.some.inj (hname.symm.trans hfound)
    obtain rfl : targets = others := Outcome.answer.inj (htargets.symm.trans hothers)
    have hplain := DomainName.getLast?_toText (hformed target (List.mem_of_mem_take htarget))
      (h target htarget)
    rw [Text.dropFinalDots_eq_self hplain]
    exact ⟨target, htarget, rfl, haddress⟩

/-- An environment in which 192.0.2.1 has one pointer, and only the text `host` has that address. -/
def soleEnvironment (target : DomainName) (host : Text) : Environment where
  zone := { Zone.empty with
    pointers := Zone.replace Zone.empty.pointers "1.2.0.192.in-addr.arpa" (.answer [target])
    ipv4Hosts := soleHost host "192.0.2.1" }
  settings := .ok {}
  clock := Clock.zero
  redis := .documented

/-- A pointer to a name without a dot at its end is returned as it was confirmed, whatever the
addresses of hosts are. -/
theorem preferred_confirmed_mail :
    (exec (preferred (.ofSettings {}) ⟨.memory, []⟩ (.v4 #v[192, 0, 2, 1]) "b.c")
        (soleEnvironment (.ofStrings ["mail", "example"]) "mail.example") {}).1 =
          .ok ("mail.example" : Text) ∧
      (∃ name targets, Address.pointerName? (.v4 #v[192, 0, 2, 1]) = some name ∧
        (soleEnvironment (.ofStrings ["mail", "example"]) "mail.example").zone.pointers name =
          .answer targets ∧
        ∃ target ∈ targets.take 10,
          HasAddress (soleEnvironment (.ofStrings ["mail", "example"]) "mail.example")
            (.v4 #v[192, 0, 2, 1]) target.toText ∧
          ("mail.example" : Text) = target.toText.dropFinalDots) ∧
      ∀ ipv4Hosts ipv6Hosts domain r,
        (exec (preferred (.ofSettings {}) ⟨.memory, []⟩ (.v4 #v[192, 0, 2, 1]) domain)
          (withHosts (soleEnvironment (.ofStrings ["mail", "example"]) "mail.example") ipv4Hosts
            ipv6Hosts)
          {}).1 = .ok r → r ≠ unknown →
        IsConfirmedTarget
          (withHosts (soleEnvironment (.ofStrings ["mail", "example"]) "mail.example") ipv4Hosts
            ipv6Hosts)
          (.v4 #v[192, 0, 2, 1]) [.ofStrings ["mail", "example"]] r := by
  have hresult : (exec (preferred (.ofSettings {}) ⟨.memory, []⟩ (.v4 #v[192, 0, 2, 1]) "b.c")
      (soleEnvironment (.ofStrings ["mail", "example"]) "mail.example") {}).1 =
        .ok ("mail.example" : Text) := by
    decide +kernel
  obtain ⟨hreturned, hexact⟩ := preferred_confirmed (.ofSettings {}) ⟨.memory, []⟩
    (.v4 #v[192, 0, 2, 1]) (soleEnvironment (.ofStrings ["mail", "example"]) "mail.example")
    (Backend.storesByKey_memory _) 10 rfl (by decide)
  refine ⟨hresult, hreturned _ _ hresult (by decide), ?_⟩
  refine (hexact _ _ rfl rfl (by decide) fun _ _ _ => ?_).2 (by decide)
  exact isServed_memory (show Store.deadline? Clock.zero (.integer 300) = .ok (some (.ofInt 300)) by
    decide +kernel)

/-- A pointer to the name of one label `a.` is confirmed as `a\x5c.` and returned as `a\x5c`, which
is no name that was published or looked up. -/
theorem preferred_not_confirmed :
    (exec (preferred (.ofSettings {}) ⟨.memory, []⟩ (.v4 #v[192, 0, 2, 1]) "b.c")
        (soleEnvironment (.ofStrings ["a."]) "a\x5c.") {}).1 = .ok ("a\x5c" : Text) ∧
      ("a\x5c" : Text) ≠ unknown ∧
      ¬ IsConfirmedTarget (soleEnvironment (.ofStrings ["a."]) "a\x5c.") (.v4 #v[192, 0, 2, 1])
        [.ofStrings ["a."]] "a\x5c" := by
  refine ⟨by decide +kernel, by decide, ?_⟩
  rintro ⟨target, htarget, htext, -⟩
  obtain rfl := List.mem_singleton.1 htarget
  revert htext
  decide

end SenderPolicy.ValidatedName
