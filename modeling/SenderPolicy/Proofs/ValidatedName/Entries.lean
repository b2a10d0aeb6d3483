import Mathlib.Data.List.Basic
import SenderPolicy.Proofs.Expansion.Failures
import SenderPolicy.Proofs.ValidatedName.Lookups

/-! The validated names, entry by entry.  Each name that is followed adds itself or nothing, and
which of the two follows from the outcome of its own lookup.  So no outcome for one name, failures
included, has a part in what another name adds. -/

namespace SenderPolicy

namespace Resolution

open SenderPolicy.Action

/-- The targets that an outcome for pointers gives; none, where there is no name or no pointer. -/
def targets? : Outcome (List DomainName) → Option (List DomainName)
  | .answer targets => some targets
  | .absent | .noRecords => some []
  | .timeout | .failed _ => none

theorem answer_pointers_of_targets {e : Environment} {name : Text} {targets : List DomainName}
    (h : targets? (e.zone.pointers name) = some targets) :
    (pointers name).answer e = .ok (targets.map DomainName.toText) := by
  cases houtcome : e.zone.pointers name with
  | answer found =>
    rw [houtcome] at h
    obtain rfl := Option.some.inj h
    exact answer_pointers_of_answer houtcome
  | absent =>
    rw [houtcome] at h
    obtain rfl := Option.some.inj h
    exact answer_pointers_of_no_answer (.inl houtcome)
  | noRecords =>
    rw [houtcome] at h
    obtain rfl := Option.some.inj h
    exact answer_pointers_of_no_answer (.inr houtcome)
  | timeout =>
    rw [houtcome] at h
    cases h
  | failed fault =>
    rw [houtcome] at h
    cases h

end Resolution

namespace ValidatedName

open SenderPolicy.Action

variable {e : Environment} {process : Settings} {tuning : Tuning} {client : Address}
  {name changed : Text} {n : Int} {targets : List DomainName}

/-- What a name adds to the validated names of a client: itself without the dots at its end, if one
of its addresses reads as the client's. -/
def entry (zone : Zone) (client : Address) (name : Text) : Option Text :=
  if ∃ text ∈ Resolution.hostTexts (Resolution.hostOutcome zone client name),
      Address.ofText? text = some client then
    some name.dropFinalDots
  else none

theorem confirms_iff_hostTexts (he : e.settings = .ok process) (client : Address) (name : Text) :
    confirms e client name ↔
      ∃ text ∈ Resolution.hostTexts (Resolution.hostOutcome e.zone client name),
        Address.ofText? text = some client := by
  obtain ⟨ttl, hanswer⟩ := Resolution.answer_hosts he client name
  rw [confirms_iff, HasAddress, hanswer]
  constructor
  · rintro ⟨texts, other, htexts, hread⟩
    obtain ⟨rfl, rfl⟩ := Prod.mk.inj (Except.ok.inj htexts)
    exact hread
  · intro hread
    exact ⟨_, ttl, rfl, hread⟩

theorem entry_eq (he : e.settings = .ok process) (client : Address) (name : Text) :
    entry e.zone client name =
      if confirms e client name then some name.dropFinalDots else none := by
  simp only [entry, confirms_iff_hostTexts he]

/-- The names that are confirmed are those that add themselves. -/
theorem map_filter_confirms (he : e.settings = .ok process) (client : Address)
    (names : List Text) :
    (names.filter (confirms e client)).map Text.dropFinalDots =
      names.filterMap (entry e.zone client) := by
  induction names with
  | nil => rfl
  | cons name names ih =>
    rw [List.filterMap_cons, entry_eq he, List.filter_cons]
    by_cases h : confirms e client name = true
    · simp [h, ih]
    · simp [h, ih]

/-- The validated names are what the names that are followed add, in order. -/
theorem answer_names_of_targets (he : e.settings = .ok process)
    (hname : client.pointerName? = some name) (hcount : tuning.maxPointerNames = .integer n)
    (hn : 0 ≤ n) (htargets : Resolution.targets? (e.zone.pointers name) = some targets) :
    (names tuning client).answer e =
      .ok (((targets.map DomainName.toText).take n.toNat).filterMap (entry e.zone client)) := by
  rw [(names_of_pointers_ok he hname hcount hn
    (Resolution.answer_pointers_of_targets htargets)).1, confirmedAmong, map_filter_confirms he]

/-! ### Other outcomes for one name -/

/-- Another outcome for the addresses of one name. -/
def hostChanges (name : Text) (outcome : Outcome (RecordSet Text)) : List Zone.Entry :=
  [.ipv4Hosts name outcome, .ipv6Hosts name outcome]

theorem set_pointers {change : Zone.Entry} {outcome : Outcome (RecordSet Text)}
    (h : change ∈ hostChanges changed outcome) (zone : Zone) :
    (zone.set change).pointers = zone.pointers := by
  rcases List.mem_pair.1 h with rfl | rfl <;> rfl

theorem hostOutcome_set {change : Zone.Entry} {outcome : Outcome (RecordSet Text)}
    (h : change ∈ hostChanges changed outcome) (zone : Zone) (client : Address)
    (hname : name ≠ changed) :
    Resolution.hostOutcome (zone.set change) client name =
      Resolution.hostOutcome zone client name := by
  rcases List.mem_pair.1 h with rfl | rfl <;> cases client <;>
    simp [Resolution.hostOutcome, Zone.set, Zone.replace, hname]

theorem entry_set {change : Zone.Entry} {outcome : Outcome (RecordSet Text)}
    (h : change ∈ hostChanges changed outcome) (zone : Zone) (client : Address)
    (hname : name ≠ changed) : entry (zone.set change) client name = entry zone client name := by
  rw [entry, entry, hostOutcome_set h zone client hname]

/-- Where the lookup for the pointers of a client gives targets or none, the validated names are, in
order and as often as they are given, those of the first ones that have an address that reads as the
client's.  Another outcome for one name changes nothing but what this name adds. -/
theorem names_exact (tuning : Tuning) (client : Address) (e : Environment) (process : Settings)
    (n : Int) (he : e.settings = .ok process) (hscope : client.isScoped = false)
    (hcount : tuning.maxPointerNames = .integer n) (hn : 0 ≤ n) :
    ∃ name, client.pointerName? = some name ∧
      ∀ targets, Resolution.targets? (e.zone.pointers name) = some targets →
        (∀ s, (exec (names tuning client) e s).1 =
          .ok (((targets.map DomainName.toText).take n.toNat).filterMap
            (entry e.zone client))) ∧
        ∀ changed outcome, ∀ change ∈ hostChanges changed outcome, ∀ s,
          (exec (names tuning client) { e with zone := e.zone.set change } s).1 =
            .ok (((targets.map DomainName.toText).take n.toNat).filterMap fun name =>
              if name = changed then entry (e.zone.set change) client name
              else entry e.zone client name) := by
  obtain ⟨name, hname⟩ := Address.exists_pointerName? hscope
  refine ⟨name, hname, ?_⟩
  intro targets htargets
  constructor
  · intro s
    rw [(usesNoCache_names tuning client).exec,
      answer_names_of_targets he hname hcount hn htargets]
  · intro changed outcome change hchange s
    have htargets' : Resolution.targets? ((e.zone.set change).pointers name) = some targets := by
      rw [set_pointers hchange]
      exact htargets
    have hanswer : (names tuning client).answer { e with zone := e.zone.set change } = _ :=
      answer_names_of_targets he hname hcount hn htargets'
    rw [(usesNoCache_names tuning client).exec, hanswer]
    refine congrArg Except.ok ?_
    apply List.filterMap_congr
    intro other _
    by_cases hother : other = changed
    · rw [if_pos hother]
    · rw [if_neg hother, entry_set hchange e.zone client hother]

/-- A zone in which 192.0.2.1 has three pointers, two of them to one host.  That host has the
address among texts that are no address, and the lookup for the other host fails. -/
def relayZone : Zone where
  pointers := Zone.replace Zone.empty.pointers "1.2.0.192.in-addr.arpa"
    (.answer [.ofStrings ["mail", "example"], .ofStrings ["relay", "example"],
      .ofStrings ["mail", "example"]])
  ipv4Hosts := Zone.replace
    (Zone.replace Zone.empty.ipv4Hosts "relay.example" (.failed .noServers))
    "mail.example" (.answer ⟨["192.0.2.1.", "192.0.2.1", "::"], some (.integer 60)⟩)
  ipv6Hosts := Zone.empty.ipv6Hosts
  texts := Zone.empty.texts

/-- The host whose lookup fails adds nothing, and once it has the address it adds itself between the
other ones. -/
theorem names_exact_relay :
    let client : Address := .v4 #v[192, 0, 2, 1]
    let e : Environment := ⟨relayZone, .ok {}, Clock.zero, .documented⟩
    let change : Zone.Entry :=
      .ipv4Hosts "relay.example" (.answer ⟨["192.0.2.1"], some (.integer 60)⟩)
    client.isScoped = false ∧
      (exec (names (.ofSettings {}) client) e {}).1 =
        .ok [("mail.example" : Text), ("mail.example" : Text)] ∧
      (exec (names (.ofSettings {}) client) { e with zone := e.zone.set change } {}).1 =
        .ok [("mail.example" : Text), ("relay.example" : Text), ("mail.example" : Text)] := by
  intro client e change
  obtain ⟨name, hname, hexact⟩ :=
    names_exact (.ofSettings {}) client e {} 10 rfl rfl rfl (by decide)
  obtain rfl := Option.some.inj hname
  obtain ⟨hnames, hchanged⟩ := hexact _ rfl
  refine ⟨rfl, ?_, ?_⟩
  · rw [hnames]
    decide +kernel
  · rw [hchanged "relay.example" (.answer ⟨["192.0.2.1"], some (.integer 60)⟩) change
      List.mem_cons_self]
    decide +kernel

end ValidatedName

end SenderPolicy
