import SenderPolicy.Proofs.Resolution
import SenderPolicy.Proofs.Text.Utf8

/-! The texts of a name.  A record comes as strings of bytes, which may be cut anywhere, and it is
read from the bytes of all of them in one.  A single record that is no form of a text makes the
whole answer a fault. -/

namespace SenderPolicy

open SenderPolicy.Action

/-- Bytes that are the form of a text. -/
def Utf8.IsForm (bytes : Bytes) : Prop := ∃ t : Text, t.toUtf8? = .ok bytes

namespace Resolution

variable {e : Environment} {process : Settings} {s : State} {strings : List Bytes}
  {records others : List (List Bytes)} {found : List Text} {ttl : Value} {name : Text}

/-! ### Records -/

theorem recordText_eq_ok_iff {t : Text} :
    recordText strings = .ok t ↔ t.toUtf8? = .ok strings.flatten := by
  rw [← Utf8.decode_eq_ok_iff, recordText]
  cases Utf8.decode strings.flatten <;> simp [Except.mapError]

theorem recordText_eq_error_iff {cause : LookupFault} :
    recordText strings = .error cause ↔
      ∃ fault, Utf8.decode strings.flatten = .error fault ∧ cause = .undecodable fault := by
  rw [recordText]
  cases Utf8.decode strings.flatten <;> simp [Except.mapError, eq_comm]

theorem isForm_iff : Utf8.IsForm strings.flatten ↔ ∃ t, recordText strings = .ok t :=
  exists_congr fun _ => recordText_eq_ok_iff.symm

theorem mapM_recordText_eq_ok_iff :
    records.mapM recordText = .ok found ↔
      found.map Text.toUtf8? = records.map (.ok ·.flatten) := by
  induction records generalizing found with
  | nil => simp [pure, Except.pure, eq_comm]
  | cons strings records ih =>
    rw [List.mapM_cons]
    constructor
    · intro h
      cases hfirst : recordText strings with
      | error cause =>
        rw [hfirst] at h
        cases h
      | ok t =>
        cases hlater : records.mapM recordText with
        | error cause =>
          rw [hfirst, hlater] at h
          cases h
        | ok texts =>
          rw [hfirst, hlater] at h
          obtain rfl : t :: texts = found := Except.ok.inj h
          rw [List.map_cons, List.map_cons, recordText_eq_ok_iff.1 hfirst, ih.1 hlater]
    · intro h
      obtain ⟨t, texts, rfl⟩ : ∃ t texts, found = t :: texts :=
        List.exists_cons_of_ne_nil (by rintro rfl; cases h)
      rw [List.map_cons, List.map_cons, List.cons.injEq] at h
      rw [recordText_eq_ok_iff.2 h.1, ih.2 h.2]
      rfl

/-- Where the strings of records are cut does not matter. -/
theorem mapM_recordText_congr (h : others.map List.flatten = records.map List.flatten) :
    others.mapM recordText = records.mapM recordText := by
  let read (bytes : Bytes) : Except LookupFault Text :=
    (Utf8.decode bytes).mapError .undecodable
  have hread (items : List (List Bytes)) :
      items.mapM recordText = (items.map List.flatten).mapM read := by
    rw [List.mapM_map]
    rfl
  rw [hread, hread, h]

/-- The first record that is no form of a text makes the fault. -/
theorem exists_of_mapM_recordText {cause : LookupFault}
    (h : records.mapM recordText = .error cause) :
    ∃ before strings after fault, records = before ++ strings :: after ∧
      (∀ earlier ∈ before, Utf8.IsForm earlier.flatten) ∧
      Utf8.decode strings.flatten = .error fault ∧ cause = .undecodable fault := by
  induction records with
  | nil => cases h
  | cons strings records ih =>
    rw [List.mapM_cons] at h
    cases hfirst : recordText strings with
    | error first =>
      rw [hfirst] at h
      obtain rfl : first = cause := Except.error.inj h
      obtain ⟨fault, hdecode, rfl⟩ := recordText_eq_error_iff.1 hfirst
      exact ⟨[], strings, records, fault, rfl, nofun, hdecode, rfl⟩
    | ok t =>
      cases hlater : records.mapM recordText with
      | ok texts =>
        rw [hfirst, hlater] at h
        cases h
      | error later =>
        rw [hfirst, hlater] at h
        obtain rfl : later = cause := Except.error.inj h
        obtain ⟨before, bad, after, fault, rfl, hbefore, hfault⟩ := ih hlater
        refine ⟨strings :: before, bad, after, fault, rfl, ?_, hfault⟩
        exact List.forall_mem_cons.2 ⟨isForm_iff.2 ⟨t, hfirst⟩, hbefore⟩

theorem exists_mapM_recordText (h : ∀ strings ∈ records, Utf8.IsForm strings.flatten) :
    ∃ found, records.mapM recordText = .ok found := by
  cases hfound : records.mapM recordText with
  | ok found => exact ⟨found, rfl⟩
  | error cause =>
    obtain ⟨before, strings, after, fault, rfl, -, hfault, -⟩ := exists_of_mapM_recordText hfound
    obtain ⟨t, ht⟩ := h strings (by simp)
    rw [Utf8.decode_eq_ok_iff.2 ht] at hfault
    cases hfault

theorem exists_fault_of_not_isForm (h : ∃ strings ∈ records, ¬Utf8.IsForm strings.flatten) :
    ∃ cause, records.mapM recordText = .error cause := by
  cases hfound : records.mapM recordText with
  | error cause => exact ⟨cause, rfl⟩
  | ok found =>
    obtain ⟨strings, hmem, hform⟩ := h
    have hbytes : .ok strings.flatten ∈ found.map Text.toUtf8? := by
      rw [mapM_recordText_eq_ok_iff.1 hfound]
      exact List.mem_map_of_mem hmem
    obtain ⟨t, -, ht⟩ := List.mem_map.1 hbytes
    exact absurd ⟨t, ht⟩ hform

/-! ### Lookups -/

theorem readRecords_texts (records : List (List Bytes)) (ttl : Value) :
    readRecords recordText (.answer ⟨records, some ttl⟩) =
      (records.mapM recordText).map fun found => (found, ttl) := by
  rw [readRecords]
  cases records.mapM recordText <;> rfl

theorem exec_texts_of_ok (hzone : e.zone.texts name = .answer ⟨records, some ttl⟩)
    (h : records.mapM recordText = .ok found) (s : State) :
    exec (texts name) e s =
      (.ok (found, ttl), { s with trace := s.trace ++ [.query ⟨.text, name⟩] }) := by
  rw [texts, exec_bind, exec_read]
  simp only [hzone, readRecords_texts, h]
  rfl

theorem exec_texts_of_error {cause : LookupFault} (he : e.settings = .ok process)
    (hzone : e.zone.texts name = .answer ⟨records, some ttl⟩)
    (h : records.mapM recordText = .error cause) (s : State) :
    exec (texts name) e s =
      (.ok ([], .integer 0),
        { s with
          trace := s.trace ++
            .query ⟨.text, name⟩ :: announced process cause "domain" ⟨.text, name⟩ }) := by
  rw [texts, exec_bind, exec_read]
  simp only [hzone, readRecords_texts, h, Except.map, Resolution.records, exec_bind, exec_record,
    exec_announceFault he, exec_pure, List.append_assoc, List.singleton_append]

/-- Of an answer with records whose bytes are forms of texts, the texts with these forms are
returned, in order.  Of any other answer nothing is returned, and the first record that is none is
announced, once.  Where the strings are cut does not matter. -/
theorem texts_reassembled (name : Text) (records : List (List Bytes)) (ttl : Value)
    (e : Environment) (process : Settings) (he : e.settings = .ok process)
    (hzone : e.zone.texts name = .answer ⟨records, some ttl⟩) (s : State) :
    ((∀ strings ∈ records, Utf8.IsForm strings.flatten) →
      ∃ found : List Text, found.map Text.toUtf8? = records.map (.ok ·.flatten) ∧
        exec (texts name) e s =
          (.ok (found, ttl), { s with trace := s.trace ++ [.query ⟨.text, name⟩] })) ∧
    ((∃ strings ∈ records, ¬Utf8.IsForm strings.flatten) →
      ∃ before strings after fault, records = before ++ strings :: after ∧
        (∀ earlier ∈ before, Utf8.IsForm earlier.flatten) ∧
        Utf8.decode strings.flatten = .error fault ∧
        exec (texts name) e s =
          (.ok ([], .integer 0),
            { s with
              trace := s.trace ++ .query ⟨.text, name⟩ ::
                announced process (.undecodable fault) "domain" ⟨.text, name⟩ })) ∧
    ∀ others : List (List Bytes), others.map List.flatten = records.map List.flatten →
      exec (texts name)
          { e with zone := e.zone.set (.texts name (.answer ⟨others, some ttl⟩)) } s =
        exec (texts name) e s := by
  refine ⟨fun hforms => ?_, fun hbroken => ?_, fun others hothers => ?_⟩
  · obtain ⟨found, hfound⟩ := exists_mapM_recordText hforms
    exact ⟨found, mapM_recordText_eq_ok_iff.1 hfound, exec_texts_of_ok hzone hfound s⟩
  · obtain ⟨cause, hcause⟩ := exists_fault_of_not_isForm hbroken
    obtain ⟨before, strings, after, fault, hrecords, hbefore, hfault, rfl⟩ :=
      exists_of_mapM_recordText hcause
    exact ⟨before, strings, after, fault, hrecords, hbefore, hfault,
      exec_texts_of_error he hzone hcause s⟩
  · let other : Environment :=
      { e with zone := e.zone.set (.texts name (.answer ⟨others, some ttl⟩)) }
    have hother : other.zone.texts name = .answer ⟨others, some ttl⟩ := if_pos rfl
    have hread : others.mapM recordText = records.mapM recordText := mapM_recordText_congr hothers
    cases hfound : records.mapM recordText with
    | ok found =>
      exact (exec_texts_of_ok hother (hread.trans hfound) s).trans
        (exec_texts_of_ok hzone hfound s).symm
    | error cause =>
      exact (exec_texts_of_error (e := other) he hother (hread.trans hfound) s).trans
        (exec_texts_of_error he hzone hfound s).symm

/-- A zone in which a name has one record, `v=é`, that is cut within the last character. -/
def accentZone : Zone :=
  Zone.empty.set (.texts "b.c" (.answer ⟨[[[0x76, 0x3d, 0xc3], [0xa9]]], some (.integer 300)⟩))

/-- Neither of the two strings is the form of a text in the way they are cut, and together they
are. -/
theorem texts_reassembled_accent :
    let e : Environment := ⟨accentZone, .ok {}, Clock.zero, .documented⟩
    e.settings = .ok {} ∧
      e.zone.texts "b.c" =
        .answer ⟨[[[0x76, 0x3d, 0xc3], [0xa9]]], some (.integer 300)⟩ ∧
      ¬Utf8.IsForm [0x76, 0x3d, 0xc3] ∧
      exec (texts "b.c") e {} =
        (.ok ([("v=é" : Text)], .integer 300), { trace := [.query ⟨.text, "b.c"⟩] }) := by
  intro e
  refine ⟨rfl, rfl, ?_, ?_⟩
  · rintro ⟨t, ht⟩
    have hcut : Utf8.decode [0x76, 0x3d, 0xc3] = .error ⟨2, 1, 0xc3, .truncated⟩ := by
      decide +kernel
    rw [Utf8.decode_eq_ok_iff.2 ht] at hcut
    cases hcut
  · obtain ⟨hread, -, -⟩ := texts_reassembled "b.c" _ _ e {} rfl rfl {}
    have hforms : ∀ strings ∈ [[[0x76, 0x3d, 0xc3], [0xa9]]],
        Utf8.IsForm (List.flatten strings) := by
      simpa using ⟨("v=é" : Text), by decide⟩
    obtain ⟨found, hfound, hexec⟩ := hread hforms
    obtain rfl : found = ["v=é"] := by
      have hread := mapM_recordText_eq_ok_iff.2 hfound
      exact (Except.ok.inj hread).symm
    exact hexec

end Resolution

end SenderPolicy
