import SenderPolicy.Proofs.Resolution

/-! What lookups report.  A lookup that ends in a fault is reported once, where the settings of the
process name a target for reports.  Apart from that, actions do the same under all settings of the
process: `ReportsFaults` says so of an action, and there is one lemma for each way to put actions
together. -/

namespace SenderPolicy

open SenderPolicy.Action

/-! ### Faults of questions -/

namespace Outcome

variable {α β : Type}

/-- The fault of a lookup whose answer is taken as it is.  A name that does not exist, one without
records and an answer that comes too late are no faults. -/
def fault? : Outcome α → Option LookupFault
  | .failed fault => some (.server fault)
  | .answer _ | .absent | .noRecords | .timeout => none

/-- The fault of a lookup whose records are read by `read`: an answer can have one too, if a record
or the time to live cannot be read. -/
def recordFault? (read : α → Except LookupFault β) : Outcome (RecordSet α) → Option LookupFault
  | .failed fault => some (.server fault)
  | .answer set => match set.records.mapM read, set.ttl with
    | .error fault, _ => some fault
    | .ok _, none => some .noTtl
    | .ok _, some _ => none
  | .absent | .noRecords | .timeout => none

theorem readRecords_eq_error_iff {read : α → Except LookupFault β} {outcome : Outcome (RecordSet α)}
    {fault : LookupFault} :
    Resolution.readRecords read outcome = .error fault ↔
      outcome.recordFault? read = some fault := by
  cases outcome with
  | answer set =>
    rw [Resolution.readRecords, recordFault?]
    rcases set.records.mapM read with cause | found
    · simp [bind, Except.bind]
    · cases set.ttl <;> simp [bind, Except.bind]
  | failed cause => simp [Resolution.readRecords, recordFault?]
  | _ => simp [Resolution.readRecords, recordFault?]

end Outcome

/-- The fault in which the lookup for a question ends, if it ends in one. -/
def Zone.fault? (zone : Zone) (question : Question) : Option LookupFault :=
  match question.type with
  | .pointer => (zone.pointers question.name).fault?
  | .ipv4Host => (zone.ipv4Hosts question.name).recordFault? Except.ok
  | .ipv6Host => (zone.ipv6Hosts question.name).recordFault? Except.ok
  | .text => (zone.texts question.name).recordFault? Resolution.recordText

/-- Under what name the name of a question is reported. -/
def RecordType.field : RecordType → Text
  | .pointer => "name"
  | .ipv4Host | .ipv6Host => "hostname"
  | .text => "domain"

/-- What is reported of a fault: the question as extras, and the fault itself. -/
def Question.reports (question : Question) (fault : LookupFault) : List Report :=
  [.extra question.type.field (.text question.name),
    .extra "record_type" (.text question.type.name), .capture fault.kind fault.message]

namespace Event

def report? : Event → Option Report
  | .report r => some r
  | _ => none

def isReport : Event → Bool
  | .report _ => true
  | _ => false

def reports (events : List Event) : List Report := events.filterMap report?

/-- The events without the reports. -/
def unreported (events : List Event) : List Event := events.filter (!·.isReport)

end Event

/-- What is to be reported of an event: the fault, if it is a question that ends in one. -/
def Zone.dueFor (zone : Zone) : Event → List Report
  | .query question => (zone.fault? question).elim [] question.reports
  | .log _ | .cache _ _ | .report _ => []

/-- The reports that are due for some events, in order, where there is a target for reports. -/
def due (zone : Zone) (process : Settings) (events : List Event) : List Report :=
  if process.reportTarget?.isSome then events.flatMap zone.dueFor else []

variable {zone : Zone} {process : Settings} {events others added later : List Event}

theorem due_append (zone : Zone) (process : Settings) (events others : List Event) :
    due zone process (events ++ others) = due zone process events ++ due zone process others := by
  unfold due
  split
  · exact List.flatMap_append
  · rfl

/-- What is added to the events of an action by reporting: nothing but the reports that are due. -/
structure IsReported (zone : Zone) (process : Settings) (events added : List Event) : Prop where
  unreported : Event.unreported added = events
  reports : Event.reports added = due zone process events

theorem IsReported.nil : IsReported zone process [] [] := by
  refine ⟨rfl, ?_⟩
  unfold due
  split <;> rfl

theorem IsReported.append (h : IsReported zone process events added)
    (hlater : IsReported zone process others later) :
    IsReported zone process (events ++ others) (added ++ later) := by
  constructor
  · rw [Event.unreported, List.filter_append]
    exact congrArg₂ (· ++ ·) h.unreported hlater.unreported
  · rw [due_append, Event.reports, List.filterMap_append]
    exact congrArg₂ (· ++ ·) h.reports hlater.reports

/-- An event that is no report stands for itself, if it is no question that ends in a fault. -/
theorem IsReported.single {event : Event} (hreport : event.isReport = false)
    (hfault : ∀ question, event = .query question → zone.fault? question = none) :
    IsReported zone process [event] [event] := by
  cases event with
  | report r => cases hreport
  | query question =>
    have hnone : zone.fault? question = none := hfault question rfl
    refine ⟨rfl, ?_⟩
    simp [Event.reports, Event.report?, due, Zone.dueFor, hnone]
  | log entry =>
    refine ⟨rfl, ?_⟩
    unfold due
    split <;> rfl
  | cache backend command =>
    refine ⟨rfl, ?_⟩
    unfold due
    split <;> rfl

/-- A question that ends in a fault comes with what is logged and reported of it. -/
theorem IsReported.announced {question : Question} {fault : LookupFault}
    (h : zone.fault? question = some fault) :
    IsReported zone process [.query question, .log (Resolution.faultEntry fault)]
      (.query question :: Resolution.announced process fault question.type.field question) := by
  have hdue : zone.dueFor (.query question) = question.reports fault := by rw [Zone.dueFor, h]; rfl
  by_cases htarget : process.reportTarget?.isSome = true
  · rw [Resolution.announced, if_pos htarget]
    refine ⟨rfl, ?_⟩
    rw [due, if_pos htarget, List.flatMap_cons, hdue]
    rfl
  · rw [Resolution.announced, if_neg htarget]
    refine ⟨rfl, ?_⟩
    rw [due, if_neg htarget]
    rfl

/-! ### Actions that report faults -/

namespace Action

variable {α β : Type} {e : Environment}

/-- An action that does the same under all settings of the process, but for reporting: it ends in
the same way, which is never the failure of a lookup that came too late, it leaves the same store,
and it adds the same events and the reports that are due for these. -/
def ReportsFaults (e : Environment) (action : Action α) : Prop :=
  ∀ store, ∃ result after events, (∀ failure, result = .error failure → failure.kind ≠ .timeout) ∧
    ∀ (process : Settings) (trace : List Event), ∃ added,
      exec action { e with settings := .ok process } ⟨store, trace⟩ =
        (result, ⟨after, trace ++ added⟩) ∧
      IsReported e.zone process events added

theorem reportsFaults_pure (a : α) : ReportsFaults e (pure a : Action α) := by
  intro store
  refine ⟨.ok a, store, [], nofun, fun process trace => ⟨[], ?_, .nil⟩⟩
  rw [exec_pure, List.append_nil]

theorem reportsFaults_throw {failure : Failure} (h : failure.kind ≠ .timeout) :
    ReportsFaults e (throw failure : Action α) := by
  intro store
  refine ⟨.error failure, store, [], ?_, fun process trace => ⟨[], ?_, .nil⟩⟩
  · rintro _ ⟨⟩
    exact h
  · rw [exec_throw, List.append_nil]

theorem reportsFaults_record {event : Event} (hreport : event.isReport = false)
    (hfault : ∀ question, event = .query question → e.zone.fault? question = none) :
    ReportsFaults e (record event) := by
  intro store
  exact ⟨.ok (), store, [event], nofun, fun process trace => ⟨[event], rfl, .single hreport hfault⟩⟩

theorem reportsFaults_log (component : Component) (level : LogLevel) (message : Text) :
    ReportsFaults e (log component level message) :=
  reportsFaults_record rfl nofun

/-- An action that is run as another one is reports what the other one reports. -/
theorem ReportsFaults.of_exec {action other : Action α} (h : ReportsFaults e other)
    (hexec : ∀ (process : Settings) (s : State),
      exec action { e with settings := .ok process } s =
        exec other { e with settings := .ok process } s) : ReportsFaults e action := by
  intro store
  obtain ⟨result, after, events, hkind, hrun⟩ := h store
  refine ⟨result, after, events, hkind, fun process trace => ?_⟩
  rw [hexec]
  exact hrun process trace

theorem ReportsFaults.bind {first : Action α} {next : α → Action β} (hfirst : ReportsFaults e first)
    (hnext : ∀ a, ReportsFaults e (next a)) : ReportsFaults e (first >>= next) := by
  intro store
  obtain ⟨result, middle, events, hkind, hrun⟩ := hfirst store
  cases result with
  | error failure =>
    refine ⟨.error failure, middle, events, ?_, fun process trace => ?_⟩
    · rintro _ ⟨⟩
      exact hkind failure rfl
    · obtain ⟨added, hadded, hreported⟩ := hrun process trace
      exact ⟨added, by rw [exec_bind, hadded], hreported⟩
  | ok a =>
    obtain ⟨result, after, others, hlast, hlater⟩ := hnext a middle
    refine ⟨result, after, events ++ others, hlast, fun process trace => ?_⟩
    obtain ⟨added, hadded, hreported⟩ := hrun process trace
    obtain ⟨later, hexec, hothers⟩ := hlater process (trace ++ added)
    refine ⟨added ++ later, ?_, hreported.append hothers⟩
    rw [exec_bind, hadded, ← List.append_assoc]
    exact hexec

/-- What is read may be used, unless those are the settings of the process. -/
theorem ReportsFaults.read_bind {next : Environment → Action α} (h : ReportsFaults e (next e))
    (hnext : ∀ process, next { e with settings := .ok process } = next e) :
    ReportsFaults e (read >>= next) := by
  apply h.of_exec
  intro process s
  rw [exec_bind, exec_read]
  simp only [hnext]

theorem ReportsFaults.record_read_bind {event : Event} {next : Environment → Action α}
    (h : ReportsFaults e (record event >>= fun _ => next e))
    (hnext : ∀ process, next { e with settings := .ok process } = next e) :
    ReportsFaults e (record event >>= fun _ => read >>= next) := by
  apply h.of_exec
  intro process s
  simp only [exec_bind, exec_record, exec_read, hnext]

theorem ReportsFaults.tryCatch {action : Action α} {handler : Failure → Action α}
    (h : ReportsFaults e action)
    (hhandler : ∀ failure, failure.kind ≠ .timeout → ReportsFaults e (handler failure)) :
    ReportsFaults e (tryCatch action handler) := by
  intro store
  obtain ⟨result, middle, events, hkind, hrun⟩ := h store
  cases result with
  | ok a =>
    refine ⟨.ok a, middle, events, nofun, fun process trace => ?_⟩
    obtain ⟨added, hadded, hreported⟩ := hrun process trace
    exact ⟨added, by rw [exec_tryCatch, hadded], hreported⟩
  | error failure =>
    obtain ⟨result, after, others, hlast, hlater⟩ := hhandler failure (hkind failure rfl) middle
    refine ⟨result, after, events ++ others, hlast, fun process trace => ?_⟩
    obtain ⟨added, hadded, hreported⟩ := hrun process trace
    obtain ⟨later, hexec, hothers⟩ := hlater process (trace ++ added)
    refine ⟨added ++ later, ?_, hreported.append hothers⟩
    rw [exec_tryCatch, hadded, ← List.append_assoc]
    exact hexec

end Action

/-! ### Lookups -/

namespace Resolution

variable {e : Environment}

/-- A question that ends in a fault is asked, and the fault is announced. -/
theorem reportsFaults_announceFault {question : Question} {fault : LookupFault}
    (h : e.zone.fault? question = some fault) :
    ReportsFaults e (record (.query question) >>= fun _ =>
      announceFault fault question.type.field question) := by
  intro store
  refine ⟨.ok (), store, [.query question, .log (faultEntry fault)], nofun, ?_⟩
  intro process trace
  have hrun := exec_announceFault (e := { e with settings := .ok process }) rfl fault
    question.type.field question ⟨store, trace ++ [.query question]⟩
  simp only [List.append_assoc, List.singleton_append] at hrun
  exact ⟨_, hrun, .announced h⟩

theorem reportsFaults_pointers (name : Text) : ReportsFaults e (pointers name) := by
  have hasked (hfault : (e.zone.pointers name).fault? = none) :
      ReportsFaults e (record (.query ⟨.pointer, name⟩)) := by
    apply reportsFaults_record rfl
    rintro _ ⟨⟩
    exact hfault
  unfold pointers
  refine ReportsFaults.record_read_bind ?_ fun _ => rfl
  cases houtcome : e.zone.pointers name with
  | answer names => exact (hasked (by rw [houtcome]; rfl)).bind fun _ => reportsFaults_pure _
  | absent => exact (hasked (by rw [houtcome]; rfl)).bind fun _ => reportsFaults_pure _
  | noRecords => exact (hasked (by rw [houtcome]; rfl)).bind fun _ => reportsFaults_pure _
  | timeout =>
    refine (hasked (by rw [houtcome]; rfl)).bind fun _ => ?_
    exact (reportsFaults_log _ _ _).bind fun _ => reportsFaults_throw nofun
  | failed fault =>
    have hfault : e.zone.fault? ⟨.pointer, name⟩ = some (.server fault) := by
      rw [Zone.fault?, houtcome]
      rfl
    have h := (reportsFaults_announceFault hfault).bind fun _ =>
      @reportsFaults_throw (List Text) e (.resolution ⟨name, .failed fault⟩) nofun
    rw [bind_assoc] at h
    exact h

/-- The fault for which there are no records is that of the question. -/
theorem reportsFaults_records {α : Type} {question : Question}
    {result : Except LookupFault (List α × Value)}
    (h : ∀ fault, result = .error fault ↔ e.zone.fault? question = some fault) :
    ReportsFaults e (records question.type.field question result) := by
  cases result with
  | ok found =>
    have hnone : e.zone.fault? question = none := by
      cases hfault : e.zone.fault? question with
      | none => rfl
      | some fault => exact nomatch (h fault).2 hfault
    refine (reportsFaults_record rfl ?_).bind fun _ => reportsFaults_pure _
    rintro _ ⟨⟩
    exact hnone
  | error fault =>
    have hannounced := (reportsFaults_announceFault ((h fault).1 rfl)).bind fun _ =>
      reportsFaults_pure (([], .integer 0) : List α × Value)
    rw [bind_assoc] at hannounced
    exact hannounced

theorem reportsFaults_ipv4Hosts (name : Text) : ReportsFaults e (ipv4Hosts name) :=
  (@reportsFaults_records e _ ⟨.ipv4Host, name⟩ _
    fun _ => Outcome.readRecords_eq_error_iff).read_bind fun _ => rfl

theorem reportsFaults_ipv6Hosts (name : Text) : ReportsFaults e (ipv6Hosts name) :=
  (@reportsFaults_records e _ ⟨.ipv6Host, name⟩ _
    fun _ => Outcome.readRecords_eq_error_iff).read_bind fun _ => rfl

end Resolution

end SenderPolicy
