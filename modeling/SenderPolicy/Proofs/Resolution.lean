import SenderPolicy.Proofs.Action

/-! Lookups use no cache, and each asks one question.  Where the process settings are valid,
announcing a fault never fails, so that the hosts of a name always have an answer, and the pointers
of a name fail only with the failure that says so. -/

namespace SenderPolicy

open SenderPolicy.Action

variable {e : Environment} {settings : Settings} {p : Failure → Prop}

namespace Reporting

theorem hasEffects_capture (settings : Settings) (kind : Kind) (message : Text)
    (context : List (Text × Value)) : HasEffects [] (capture settings kind message context) := by
  unfold capture
  split
  · exact (HasEffects.forM (fun _ => hasEffects_report _) context).bind fun _ => hasEffects_report _
  · exact hasEffects_pure ()

theorem hasEffects_announce (kind : Kind) (message : Text) (context : List (Text × Value))
    (level : LogLevel) : HasEffects [] (announce kind message context level) :=
  hasEffects_processSettings.bind fun _ => (hasEffects_log _ _ _).bind
    fun _ => hasEffects_capture _ _ _ _

theorem failsOnly_capture (settings : Settings) (kind : Kind) (message : Text)
    (context : List (Text × Value)) : FailsOnly p e (capture settings kind message context) := by
  unfold capture
  split
  · exact (FailsOnly.forM (fun _ => failsOnly_record _) context).bind fun _ => failsOnly_record _
  · exact failsOnly_pure ()

theorem failsOnly_announce (h : CoversSettings p e) (kind : Kind) (message : Text)
    (context : List (Text × Value)) (level : LogLevel) :
    FailsOnly p e (announce kind message context level) :=
  (failsOnly_processSettings h).bind fun _ => (failsOnly_record _).bind
    fun _ => failsOnly_capture _ _ _ _

end Reporting

namespace Resolution

/-- The entry in the log that tells a fault. -/
def faultEntry (fault : LookupFault) : LogEntry :=
  ⟨.reporting, .error, fault.kind.name ++ ": " ++ fault.message⟩

/-- What is logged of a fault, and what is reported of it where there is a target for reports. -/
def announced (settings : Settings) (fault : LookupFault) (field : Text) (question : Question) :
    List Event :=
  .log (faultEntry fault) ::
    if settings.reportTarget?.isSome then
      [.report (.extra field (.text question.name)),
        .report (.extra "record_type" (.text question.type.name)),
        .report (.capture fault.kind fault.message)]
    else []

/-- A fault can be announced, whatever it is. -/
theorem exec_announceFault (h : e.settings = .ok settings) (fault : LookupFault) (field : Text)
    (question : Question) (s : State) :
    exec (announceFault fault field question) e s =
      (.ok (), { s with trace := s.trace ++ announced settings fault field question }) := by
  have hsettings : exec processSettings e s = (.ok settings, s) := by
    rw [exec_processSettings, h]
    rfl
  rw [announceFault, Reporting.announce, exec_bind, hsettings]
  by_cases htarget : settings.reportTarget?.isSome = true
  · simp [exec_bind, Reporting.capture, announced, faultEntry, htarget]
  · simp [Reporting.capture, announced, faultEntry, htarget]

/-- A lookup asks its one question, whatever becomes of it. -/
theorem hasEffects_pointers (name : Text) :
    HasEffects [.query ⟨.pointer, name⟩] (pointers name) := by
  refine (hasEffects_query _).bind fun _ => .read_bind (fun e => ?_) fun _ _ => rfl
  cases e.zone.pointers name with
  | answer names => exact hasEffects_pure _
  | absent => exact hasEffects_pure _
  | noRecords => exact hasEffects_pure _
  | timeout => exact (hasEffects_log _ _ _).bind fun _ => hasEffects_throw _
  | failed fault =>
    exact (Reporting.hasEffects_announce _ _ _ _).bind fun _ => hasEffects_throw _

theorem usesNoCache_pointers (name : Text) : UsesNoCache (pointers name) :=
  (hasEffects_pointers name).usesNoCache

theorem hasEffects_records {α : Type} (field : Text) (question : Question)
    (result : Except LookupFault (List α × Value)) :
    HasEffects [.query question] (records field question result) := by
  refine (hasEffects_query _).bind fun _ => ?_
  cases result with
  | ok found => exact hasEffects_pure _
  | error fault =>
    exact (Reporting.hasEffects_announce _ _ _ _).bind fun _ => hasEffects_pure _

theorem failsOnly_records {α : Type} (h : CoversSettings p e) (field : Text)
    (question : Question) (result : Except LookupFault (List α × Value)) :
    FailsOnly p e (records field question result) := by
  refine (failsOnly_record _).bind fun _ => ?_
  cases result with
  | ok found => exact failsOnly_pure _
  | error fault => exact (Reporting.failsOnly_announce h _ _ _ _).bind fun _ => failsOnly_pure _

/-- The pointers of a name that are not there are an answer, and other faults are failures of their
own kind. -/
theorem failsOnly_pointers (h : CoversSettings p e) (hp : ∀ error, p (.resolution error))
    (name : Text) : FailsOnly p e (pointers name) := by
  refine (failsOnly_record _).bind fun _ => .read_bind ?_
  cases e.zone.pointers name with
  | answer names => exact failsOnly_pure _
  | absent => exact failsOnly_pure _
  | noRecords => exact failsOnly_pure _
  | timeout => exact (failsOnly_record _).bind fun _ => failsOnly_throw (hp _)
  | failed fault =>
    exact (Reporting.failsOnly_announce h _ _ _ _).bind fun _ => failsOnly_throw (hp _)

/-- The pointers of a name that are found are those that the zone has, or there are none. -/
theorem answer_pointers_eq_ok {name : Text} {found : List Text}
    (h : (pointers name).answer e = .ok found) :
    ∃ targets : List DomainName, found = targets.map DomainName.toText ∧
      (e.zone.pointers name = .answer targets ∨ targets = []) := by
  unfold pointers at h
  simp only [answer, exec_bind, exec_record, exec_read] at h
  cases houtcome : e.zone.pointers name with
  | answer targets =>
    rw [houtcome] at h
    exact ⟨targets, by simpa using h.symm, .inl rfl⟩
  | absent =>
    rw [houtcome] at h
    exact ⟨[], by simpa using h.symm, .inr rfl⟩
  | noRecords =>
    rw [houtcome] at h
    exact ⟨[], by simpa using h.symm, .inr rfl⟩
  | timeout =>
    rw [houtcome] at h
    simp [exec_bind] at h
  | failed fault =>
    rw [houtcome] at h
    simp only [exec_bind] at h
    split at h <;> simp at h

theorem answer_pointers_of_answer {name : Text} {targets : List DomainName}
    (h : e.zone.pointers name = .answer targets) :
    (pointers name).answer e = .ok (targets.map DomainName.toText) := by
  unfold pointers
  simp only [answer, exec_bind, exec_record, exec_read, h]
  rfl

theorem answer_pointers_of_no_answer {name : Text}
    (h : e.zone.pointers name = .absent ∨ e.zone.pointers name = .noRecords) :
    (pointers name).answer e = .ok [] := by
  unfold pointers
  rcases h with h | h
  · simp only [answer, exec_bind, exec_record, exec_read, h]
    rfl
  · simp only [answer, exec_bind, exec_record, exec_read, h]
    rfl

/-- Why an outcome is a failure for pointers, if it is one. -/
def cause? {α : Type} : Outcome α → Option ResolutionCause
  | .timeout => some .timeout
  | .failed fault => some (.failed fault)
  | _ => none

theorem answer_pointers_of_cause {name : Text} {cause : ResolutionCause}
    (he : e.settings = .ok settings) (h : cause? (e.zone.pointers name) = some cause) :
    (pointers name).answer e = .error (.resolution ⟨name, cause⟩) := by
  unfold pointers
  simp only [answer, exec_bind, exec_record, exec_read]
  cases houtcome : e.zone.pointers name with
  | answer targets =>
    rw [houtcome] at h
    cases h
  | absent =>
    rw [houtcome] at h
    cases h
  | noRecords =>
    rw [houtcome] at h
    cases h
  | timeout =>
    rw [houtcome] at h
    obtain rfl := Option.some.inj h
    rfl
  | failed fault =>
    rw [houtcome] at h
    obtain rfl := Option.some.inj h
    simp only [exec_bind, exec_announceFault he]
    rfl

/-- A fault stands for no records. -/
theorem answer_records {α : Type} (h : e.settings = .ok settings) (field : Text)
    (question : Question) (result : Except LookupFault (List α × Value)) :
    (records field question result).answer e =
      .ok (result.toOption.getD ([], .integer 0)) := by
  unfold records
  simp only [answer, exec_bind, exec_record]
  cases result with
  | ok found => rfl
  | error fault =>
    simp only [exec_bind, exec_announceFault h]
    rfl

/-- The addresses of a name, as texts, of the family of `client`. -/
def hosts (client : Address) (name : Text) : Action (List Text × Value) :=
  match client with
  | .v4 _ => ipv4Hosts name
  | .v6 _ _ => ipv6Hosts name

/-- The question for the addresses of a name, of the family of `client`. -/
def hostQuestion (client : Address) (name : Text) : Question :=
  match client with
  | .v4 _ => ⟨.ipv4Host, name⟩
  | .v6 _ _ => ⟨.ipv6Host, name⟩

theorem hasEffects_hosts (client : Address) (name : Text) :
    HasEffects [.query (hostQuestion client name)] (hosts client name) := by
  cases client with
  | v4 q => exact .read_bind (fun _ => hasEffects_records _ _ _) fun _ _ => rfl
  | v6 g scope => exact .read_bind (fun _ => hasEffects_records _ _ _) fun _ _ => rfl

theorem usesNoCache_hosts (client : Address) (name : Text) : UsesNoCache (hosts client name) :=
  (hasEffects_hosts client name).usesNoCache

theorem failsOnly_hosts (h : CoversSettings p e) (client : Address) (name : Text) :
    FailsOnly p e (hosts client name) := by
  cases client with
  | v4 q => exact .read_bind (failsOnly_records h _ _ _)
  | v6 g scope => exact .read_bind (failsOnly_records h _ _ _)

/-- What becomes of the lookup for the addresses of a name, of the family of `client`. -/
def hostOutcome (zone : Zone) (client : Address) (name : Text) : Outcome (RecordSet Text) :=
  match client with
  | .v4 _ => zone.ipv4Hosts name
  | .v6 _ _ => zone.ipv6Hosts name

/-- The addresses that an outcome gives.  There are some in an answer whose time to live can be
read, and in nothing else. -/
def hostTexts : Outcome (RecordSet Text) → List Text
  | .answer ⟨texts, some _⟩ => texts
  | _ => []

theorem readRecords_hosts (outcome : Outcome (RecordSet Text)) :
    ((readRecords Except.ok outcome).toOption.getD ([], .integer 0)).1 = hostTexts outcome := by
  cases outcome with
  | answer set =>
    obtain ⟨texts, ttl⟩ := set
    have hread : texts.mapM (Except.ok (ε := LookupFault)) = .ok (texts.map id) :=
      List.mapM_pure (m := Except LookupFault) (f := id)
    rw [List.map_id] at hread
    simp only [readRecords, hread]
    cases ttl <;> rfl
  | _ => rfl

theorem answer_hosts (h : e.settings = .ok settings) (client : Address) (name : Text) :
    ∃ ttl, (hosts client name).answer e =
      .ok (hostTexts (hostOutcome e.zone client name), ttl) := by
  rw [← readRecords_hosts]
  cases client with
  | v4 q => exact ⟨_, answer_records h "hostname" ⟨.ipv4Host, name⟩ _⟩
  | v6 g scope => exact ⟨_, answer_records h "hostname" ⟨.ipv6Host, name⟩ _⟩

end Resolution

end SenderPolicy
