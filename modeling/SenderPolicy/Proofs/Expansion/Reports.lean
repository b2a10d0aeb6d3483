import SenderPolicy.Proofs.Expansion.Effects
import SenderPolicy.Proofs.Expansion.Rejection
import SenderPolicy.Proofs.Reporting

/-! What the expansion of a term reports.  Everything within a term reports the faults of its
questions, each once.  The guard around the term adds the failure in which the term ends, unless it
is a failure of expansion: so a fault of a lookup of pointers, which ends in such a failure, is not
reported twice.  Nothing is reported without a target, and nothing else depends on that. -/

namespace SenderPolicy

open SenderPolicy.Action

variable {e : Environment}

theorem Failure.kind_tuning_ne_timeout (fault : Tuning.Fault) :
    (Failure.tuning fault).kind ≠ .timeout :=
  ne_of_mem_of_not_mem (Failure.kind_tuning_mem fault) (by decide +kernel)

/-! ### Validated names -/

namespace Cache

theorem reportsFaults_get (cache : Cache) (key : Text) : ReportsFaults e (cache.get key) := by
  intro store
  refine ⟨cache.backend.found e store (cache.space ++ key), store,
    [.cache cache.backend (.get (cache.space ++ key))], ?_, ?_⟩
  · intro failure h
    obtain ⟨fault, rfl⟩ := Backend.exists_of_found_eq_error h
    cases fault <;> nofun
  · intro process trace
    exact ⟨_, Backend.exec_get cache.backend (cache.space ++ key) _ _, .single rfl nofun⟩

theorem reportsFaults_backend_set (backend : Backend) (key value : Text) (ttl : Value) :
    ReportsFaults e (backend.set key value ttl) := by
  intro store
  refine ⟨(backend.stored e store key value ttl).1, (backend.stored e store key value ttl).2,
    [.cache backend (.set key value ttl)], ?_, ?_⟩
  · intro failure h
    rcases Backend.exists_of_stored_eq_error h with ⟨fault, rfl⟩ | ⟨fault, rfl⟩ <;>
      cases fault <;> nofun
  · intro process trace
    exact ⟨_, Backend.exec_set backend key value ttl _ _, .single rfl nofun⟩

theorem reportsFaults_set (cache : Cache) (key value : Text) (ttl : Value) (logged : Bool) :
    ReportsFaults e (cache.set key value ttl logged) := by
  refine (reportsFaults_backend_set _ _ _ _).bind fun _ => ?_
  split
  · exact reportsFaults_log _ _ _
  · exact reportsFaults_pure _

end Cache

namespace ValidatedName

theorem reportsFaults_isAmong (client : Address) (name : Text) (texts : List Text) :
    ReportsFaults e (isAmong client name texts) := by
  induction texts with
  | nil => exact reportsFaults_pure _
  | cons text texts ih =>
    rw [isAmong]
    split
    · split
      · exact reportsFaults_pure _
      · exact ih
    · exact (reportsFaults_log _ _ _).bind fun _ => ih

theorem reportsFaults_isConfirmed (client : Address) (name : Text) :
    ReportsFaults e (isConfirmed client name) := by
  cases client with
  | v4 q =>
    exact (Resolution.reportsFaults_ipv4Hosts name).bind fun _ => reportsFaults_isAmong _ _ _
  | v6 g scope =>
    exact (Resolution.reportsFaults_ipv6Hosts name).bind fun _ => reportsFaults_isAmong _ _ _

theorem reportsFaults_confirmed (client : Address) (names : List Text) :
    ReportsFaults e (confirmed client names) := by
  induction names with
  | nil => exact reportsFaults_pure _
  | cons name names ih =>
    refine (reportsFaults_isConfirmed client name).bind fun _ => ?_
    exact ih.bind fun _ => reportsFaults_pure _

theorem reportsFaults_names (tuning : Tuning) (client : Address) :
    ReportsFaults e (names tuning client) := by
  unfold names
  split
  · exact reportsFaults_throw (by decide)
  · refine (Resolution.reportsFaults_pointers _).bind fun found => ?_
    split
    · exact reportsFaults_confirmed _ _
    · exact reportsFaults_throw (Failure.kind_tuning_ne_timeout _)

theorem reportsFaults_preferred (tuning : Tuning) (cache : Cache) (client : Address)
    (domain : Text) : ReportsFaults e (preferred tuning cache client domain) := by
  refine (Cache.reportsFaults_get _ _).bind fun found => ?_
  split
  · exact reportsFaults_pure _
  · refine (reportsFaults_names _ _).bind fun _ => ?_
    exact (Cache.reportsFaults_set _ _ _ _ _).bind fun _ => reportsFaults_pure _

end ValidatedName

/-! ### Expansion -/

namespace Expander

variable {x : Expander} {session : Session}

theorem reportsFaults_resolve (letter : Letter) :
    ReportsFaults e (x.resolve session letter) := by
  cases letter with
  | sender => exact reportsFaults_pure _
  | localPart => exact reportsFaults_pure _
  | senderDomain => exact reportsFaults_pure _
  | currentDomain => exact reportsFaults_pure _
  | clientAddress =>
    rw [resolve]
    split
    · exact reportsFaults_pure _
    · refine reportsFaults_throw fun hkind => ?_
      cases hkind
  | validatedName =>
    refine (ValidatedName.reportsFaults_preferred _ _ _ _).tryCatch fun failure hkind => ?_
    split
    · refine reportsFaults_throw fun hunresolved => ?_
      cases hunresolved
    · exact reportsFaults_throw hkind
  | heloDomain =>
    rw [resolve]
    split
    · exact reportsFaults_pure _
    · exact reportsFaults_throw (by decide)
  | readableAddress => exact reportsFaults_pure _
  | receivingHost =>
    rw [resolve]
    split
    · exact reportsFaults_pure _
    · split
      · exact reportsFaults_pure _
      · exact reportsFaults_throw (Failure.kind_tuning_ne_timeout _)
  | timestamp =>
    rw [resolve]
    split
    · exact reportsFaults_pure _
    · exact reportsFaults_throw (by decide)
  | addressVersion => exact reportsFaults_pure _

theorem reportsFaults_expandPiece (piece : Piece) :
    ReportsFaults e (x.expandPiece session piece) := by
  cases piece with
  | literal text => exact reportsFaults_pure text
  | token token =>
    refine (reportsFaults_resolve token.letter).bind fun value => ?_
    split
    · exact reportsFaults_pure _
    · next fault _ => exact reportsFaults_throw (by cases fault <;> nofun)

theorem reportsFaults_expandPieces (pieces : List Piece) :
    ReportsFaults e (x.expandPieces session pieces) := by
  induction pieces with
  | nil => exact reportsFaults_pure []
  | cons piece pieces ih =>
    rw [expandPieces_cons]
    refine (reportsFaults_expandPiece piece).bind fun text => ?_
    exact ih.bind fun later => reportsFaults_pure _

theorem kind_ofScan_ne_timeout (value : Text) (fault : ScanFault) :
    (Failure.ofScan value fault).kind ≠ .timeout :=
  ne_of_mem_of_not_mem (Failure.kind_ofScan_mem value fault) (by decide +kernel)

theorem reportsFaults_expand (value : Text) (letters : List Character) :
    ReportsFaults e (x.expand session value letters) := by
  cases hscan : MacroString.scan letters value with
  | ok pieces =>
    rw [expand_of_scan hscan]
    exact reportsFaults_expandPieces pieces
  | error fault =>
    unfold expand
    rw [hscan]
    have hthrow : ReportsFaults e (throw (Failure.ofScan value fault) : Action Text) :=
      reportsFaults_throw (kind_ofScan_ne_timeout value fault)
    by_cases hkind : (Failure.ofScan value fault).kind.isExpansion = true
    · simp only [hkind, if_true]
      exact (reportsFaults_log _ _ _).bind fun _ => hthrow
    · simp only [hkind]
      exact hthrow

theorem reportsFaults_expandDomainSpec (value : Text) :
    ReportsFaults e (x.expandDomainSpec session value) := by
  refine (reportsFaults_expand value _).bind fun domain => ?_
  cases hlimit : x.tuning.domainLength? with
  | error fault => exact reportsFaults_throw (Failure.kind_tuning_ne_timeout fault)
  | ok limit? =>
    have hshortened : ReportsFaults e (do
        if shorten limit? domain.dropFinalDots ≠ domain.dropFinalDots then
          log .expander .debug ("Shortened expanded domain " ++ domain.dropFinalDots ++ " to " ++
            shorten limit? domain.dropFinalDots)
        return shorten limit? domain.dropFinalDots) := by
      split
      · exact (reportsFaults_log _ _ _).bind fun _ => reportsFaults_pure _
      · exact reportsFaults_pure _
    dsimp only
    split
    · split
      · refine (reportsFaults_throw fun hkind => ?_).bind fun _ => hshortened
        cases hkind
      · exact (reportsFaults_throw (by decide)).bind fun _ => hshortened
    · exact hshortened

end Expander

/-! ### Captures -/

def Report.capture? : Report → Option (Kind × Text)
  | .capture kind message => some (kind, message)
  | .start _ _ _ | .extra _ _ => none

/-- The failures that are captured among some events, by their kinds and messages. -/
def Event.captures (events : List Event) : List (Kind × Text) :=
  (Event.reports events).filterMap Report.capture?

/-- What is captured of a question that ends in a fault. -/
def Zone.capture? (zone : Zone) (question : Question) : Option (Kind × Text) :=
  (zone.fault? question).map fun fault => (fault.kind, fault.message)

variable {zone : Zone} {process : Settings} {events added : List Event}

theorem capture?_due (h : process.reportTarget?.isSome = true) (events : List Event) :
    (due zone process events).filterMap Report.capture? =
      (events.filterMap Expander.question?).filterMap zone.capture? := by
  rw [due, if_pos h]
  induction events with
  | nil => rfl
  | cons event events ih =>
    rw [List.flatMap_cons, List.filterMap_append, ih]
    cases event with
    | query question =>
      change _ = (question :: events.filterMap Expander.question?).filterMap zone.capture?
      rw [Zone.dueFor]
      cases hfault : zone.fault? question with
      | none =>
        have hnone : zone.capture? question = none := by rw [Zone.capture?, hfault]; rfl
        rw [List.filterMap_cons_none hnone]
        rfl
      | some fault =>
        have hcapture : zone.capture? question = some (fault.kind, fault.message) := by
          rw [Zone.capture?, hfault]
          rfl
        rw [List.filterMap_cons_some hcapture]
        rfl
    | log entry => rfl
    | cache backend command => rfl
    | report r => rfl

theorem question?_unreported (events : List Event) :
    (Event.unreported events).filterMap Expander.question? =
      events.filterMap Expander.question? := by
  rw [Event.unreported, List.filterMap_filter]
  apply List.filterMap_congr
  intro event _
  cases event <;> rfl

theorem IsReported.captures (h : IsReported zone process events added)
    (htarget : process.reportTarget?.isSome = true) :
    Event.captures added = (added.filterMap Expander.question?).filterMap zone.capture? := by
  rw [Event.captures, h.reports, capture?_due htarget, ← h.unreported, question?_unreported]

/-- No fault of a lookup is a failure of expansion or the failure of a lookup that came too late. -/
theorem LookupFault.kind_spec (fault : LookupFault) :
    fault.kind.isExpansion = false ∧ fault.kind ≠ .timeout := by
  cases fault with
  | server cause =>
    cases cause with
    | noServers => decide
    | badName fault => cases fault <;> decide
    | other message => exact ⟨rfl, nofun⟩
  | noTtl => decide
  | undecodable fault => exact ⟨rfl, nofun⟩

namespace Reporting

/-- What is captured of the end of a term: the failure, unless it is one of expansion. -/
def captureAtEnd : Except Failure Text → List (Kind × Text)
  | .ok _ => []
  | .error failure =>
    if failure.kind.isExpansion then [] else [(failure.kind, failure.message)]

theorem kind_of_mem_captureAtEnd {result : Except Failure Text} {kind : Kind} {message : Text}
    (hkind : ∀ failure, result = .error failure → failure.kind ≠ .timeout)
    (h : (kind, message) ∈ captureAtEnd result) : kind.isExpansion = false ∧ kind ≠ .timeout := by
  cases result with
  | ok text => cases h
  | error failure =>
    rw [captureAtEnd] at h
    split at h
    · cases h
    · next hexpansion =>
      obtain ⟨rfl, rfl⟩ := Prod.mk.inj (List.mem_singleton.1 h)
      exact ⟨Bool.eq_false_iff.2 hexpansion, hkind failure rfl⟩

/-- What a guard adds at the end of a term. -/
def reportedAtEnd (process : Settings) : Except Failure Text → List Event
  | .ok _ => []
  | .error failure => if failure.kind.isExpansion then [] else captured process failure

theorem unreported_reportedAtEnd (process : Settings) (result : Except Failure Text) :
    Event.unreported (reportedAtEnd process result) = [] := by
  cases result with
  | ok text => rfl
  | error failure =>
    rw [reportedAtEnd]
    split
    · rfl
    · rw [captured]
      split <;> rfl

theorem captures_reportedAtEnd (htarget : process.reportTarget?.isSome = true)
    (result : Except Failure Text) :
    Event.captures (reportedAtEnd process result) = captureAtEnd result := by
  cases result with
  | ok text => rfl
  | error failure =>
    rw [reportedAtEnd, captureAtEnd]
    split
    · rfl
    · rw [captured, if_pos htarget]
      rfl

theorem reportedAtEnd_of_no_target (htarget : ¬ process.reportTarget?.isSome = true)
    (result : Except Failure Text) : reportedAtEnd process result = [] := by
  cases result with
  | ok text => rfl
  | error failure =>
    rw [reportedAtEnd, captured, if_neg htarget]
    split <;> rfl

/-- With a target, what is captured is captured of the questions that end in a fault, and at last of
the end. -/
theorem captures_append_reportedAtEnd (h : IsReported zone process events added)
    (htarget : process.reportTarget?.isSome = true) (result : Except Failure Text) :
    Event.captures (added ++ reportedAtEnd process result) =
      ((added ++ reportedAtEnd process result).filterMap Expander.question?).filterMap
        zone.capture? ++ captureAtEnd result := by
  have hend : (reportedAtEnd process result).filterMap Expander.question? = [] := by
    rw [← question?_unreported, unreported_reportedAtEnd]
    rfl
  calc Event.captures (added ++ reportedAtEnd process result)
    _ = Event.captures added ++ Event.captures (reportedAtEnd process result) := by
      rw [Event.captures, Event.reports, List.filterMap_append, List.filterMap_append]
      rfl
    _ = _ := by
      rw [h.captures htarget, captures_reportedAtEnd htarget, List.filterMap_append, hend,
        List.append_nil]

theorem reports_append_reportedAtEnd (h : IsReported zone process events added)
    (htarget : ¬ process.reportTarget?.isSome = true) (result : Except Failure Text) :
    Event.reports (added ++ reportedAtEnd process result) = [] := by
  have hreports := h.reports
  rw [due, if_neg htarget] at hreports
  rw [reportedAtEnd_of_no_target htarget, List.append_nil, hreports]

/-- A guarded action does the same under all settings of the process, but for its reports. -/
theorem exists_exec_guarded_of_reportsFaults {action : Action Text} (h : ReportsFaults e action)
    (store : Store) :
    ∃ result after events, (∀ failure, result = .error failure → failure.kind ≠ .timeout) ∧
      ∀ (process : Settings) (trace : List Event), ∃ added,
        exec (guarded action) { e with settings := .ok process } ⟨store, trace⟩ =
          (result, ⟨after, trace ++ (added ++ reportedAtEnd process result)⟩) ∧
        IsReported e.zone process events added := by
  obtain ⟨result, after, events, hkind, hrun⟩ := h store
  refine ⟨result, after, events, hkind, fun process trace => ?_⟩
  obtain ⟨added, hadded, hreported⟩ := hrun process trace
  refine ⟨added, ?_, hreported⟩
  cases result with
  | ok text =>
    rw [reportedAtEnd, List.append_nil]
    exact exec_guarded_eq_ok.2 hadded
  | error failure =>
    rw [reportedAtEnd]
    split
    · next hexpansion =>
      rw [List.append_nil]
      exact exec_guarded_of_isExpansion hadded hexpansion
    · next hexpansion =>
      rw [← List.append_assoc]
      exact exec_guarded_of_not_isExpansion hadded (Bool.eq_false_iff.2 hexpansion) rfl

end Reporting

namespace Expander

theorem reportsFaults_unguarded (x : Expander) (session : Session) (term : Term) :
    ReportsFaults e (if term.isExplanation then x.expandExplanation session term.value
      else x.expandDomainSpec session term.value) := by
  split
  · exact reportsFaults_expand _ _
  · exact reportsFaults_expandDomainSpec _

/-- Under all valid settings of the process a term ends in the same way, leaves the same store, asks
the same questions and logs the same.  Where there is a target for reports, every question of it
that ends in a fault is captured once, in order, and then the failure in which the term ends, unless
this is a failure of expansion; without a target, nothing is reported.  So no failure of expansion
is ever captured, and no name that does not exist, has no records or is not answered in time. -/
theorem expandTerm_reports_once (x : Expander) (session : Session) (term : Term) (e : Environment)
    (s : State) (process : Settings) (he : e.settings = .ok process) :
    let run := exec (x.expandTerm session term) e s
    ∃ added, run.2.trace = s.trace ++ added ∧
      (∀ dsn, process.reportDsn = some dsn → dsn ≠ [] →
        Event.captures added =
          (added.filterMap question?).filterMap e.zone.capture? ++
            Reporting.captureAtEnd run.1) ∧
      (process.reportDsn = none ∨ process.reportDsn = some [] → Event.reports added = []) ∧
      (∀ kind message, (kind, message) ∈ Event.captures added →
        kind.isExpansion = false ∧ kind ≠ .timeout) ∧
      ∀ other : Settings,
        let run' := exec (x.expandTerm session term) { e with settings := .ok other } s
        run'.1 = run.1 ∧ run'.2.store = run.2.store ∧
          Event.unreported run'.2.trace = Event.unreported run.2.trace := by
  intro run
  obtain ⟨result, after, events, hkind, hruns⟩ :=
    Reporting.exists_exec_guarded_of_reportsFaults (@reportsFaults_unguarded e x session term)
      s.store
  have hexec (process : Settings) : ∃ added,
      exec (x.expandTerm session term) { e with settings := .ok process } s =
        (result, ⟨after, s.trace ++ (added ++ Reporting.reportedAtEnd process result)⟩) ∧
      IsReported e.zone process events added := hruns process s.trace
  obtain ⟨added, hrun, hreported⟩ := hexec process
  rw [← he] at hrun
  have hrun : run = _ := hrun
  have hunreported (settings : Settings) {added : List Event}
      (h : IsReported e.zone settings events added) :
      Event.unreported (s.trace ++ (added ++ Reporting.reportedAtEnd settings result)) =
        Event.unreported s.trace ++ events := by
    have hend := Reporting.unreported_reportedAtEnd settings result
    have hadded := h.unreported
    rw [Event.unreported] at hend hadded ⊢
    rw [List.filter_append, List.filter_append, hend, hadded, List.append_nil]
    rfl
  refine ⟨added ++ Reporting.reportedAtEnd process result, by rw [hrun], ?_, ?_, ?_, ?_⟩
  · intro dsn hdsn hne
    have htarget : process.reportTarget?.isSome = true := by
      simp [Settings.reportTarget?, hdsn, hne]
    rw [hrun]
    exact Reporting.captures_append_reportedAtEnd hreported htarget result
  · intro hdsn
    apply Reporting.reports_append_reportedAtEnd hreported
    rcases hdsn with hdsn | hdsn <;> simp [Settings.reportTarget?, hdsn]
  · intro kind message hcaptured
    by_cases htarget : process.reportTarget?.isSome = true
    · rw [Reporting.captures_append_reportedAtEnd hreported htarget, List.mem_append] at hcaptured
      rcases hcaptured with hquestion | hend
      · obtain ⟨question, -, hcapture⟩ := List.mem_filterMap.1 hquestion
        obtain ⟨fault, -, heq⟩ := Option.map_eq_some_iff.1 hcapture
        obtain ⟨rfl, rfl⟩ := Prod.mk.inj heq
        exact fault.kind_spec
      · exact Reporting.kind_of_mem_captureAtEnd hkind hend
    · rw [Event.captures, Reporting.reports_append_reportedAtEnd hreported htarget] at hcaptured
      cases hcaptured
  · intro other run'
    obtain ⟨others, hrun', hothers⟩ := hexec other
    have hrun' : run' = _ := hrun'
    rw [hrun, hrun']
    exact ⟨rfl, rfl, (hunreported other hothers).trans (hunreported process hreported).symm⟩

/-- Data in which one host of a client fails, one has no time to live, and one is not answered in
time. -/
def faultyZone : Zone where
  pointers := Zone.replace Zone.empty.pointers "1.2.0.192.in-addr.arpa"
    (.answer [.ofStrings ["relay", "example"], .ofStrings ["mail", "example"],
      .ofStrings ["late", "example"]])
  ipv4Hosts := Zone.merge Zone.empty [.ipv4Hosts "relay.example" (.failed (.other "refused")),
    .ipv4Hosts "mail.example" (.answer ⟨["192.0.2.1"], none⟩),
    .ipv4Hosts "late.example" .timeout] |>.ipv4Hosts
  ipv6Hosts := Zone.empty.ipv6Hosts
  texts := Zone.empty.texts

/-- Two of the three hosts are captured, and then the failure of the letter after them.  The name
that is found by then is `unknown`, with and without a target for reports. -/
theorem expandTerm_reports_once_hosts :
    let x : Expander := ⟨{ Tuning.ofSettings {} with receivingHost := .integer 1 }, ⟨.memory, []⟩⟩
    let session := mailSession (.v4 #v[192, 0, 2, 1])
    let term : Term := ⟨"+", "exp", "%\x7bp\x7d%\x7br\x7d"⟩
    let target : Settings := { reportDsn := some ("https://reports.example/1" : Text) }
    let quiet := exec (x.expandTerm session term) ⟨faultyZone, .ok {}, Clock.zero, .documented⟩ {}
    let run := exec (x.expandTerm session term) ⟨faultyZone, .ok target, Clock.zero, .documented⟩ {}
    run.1 = .error (.tuning (.noHost "int")) ∧
      Event.captures run.2.trace = [(.runtime, ("refused" : Text)),
        (.missingAttribute, ("'NoneType' object has no attribute 'ttl'" : Text)),
        (.missingAttribute, ("'int' object has no attribute 'strip'" : Text))] ∧
      quiet.1 = run.1 ∧ Event.reports quiet.2.trace = [] := by
  intro x session term target quiet run
  have hresult : run.1 = .error (.tuning (.noHost "int")) := by decide +kernel
  obtain ⟨added, htrace, hcaptures, -, -, hsame⟩ := expandTerm_reports_once x session term
    ⟨faultyZone, .ok target, Clock.zero, .documented⟩ {} target rfl
  obtain ⟨others, hothers, -, hnone, -⟩ := expandTerm_reports_once x session term
    ⟨faultyZone, .ok {}, Clock.zero, .documented⟩ {} {} rfl
  rw [List.nil_append] at htrace hothers
  refine ⟨hresult, ?_, (hsame {}).1, ?_⟩
  · rw [htrace, hcaptures _ rfl (by decide), ← htrace]
    decide +kernel
  · rw [hothers]
    exact hnone (.inl rfl)

end Expander

end SenderPolicy
