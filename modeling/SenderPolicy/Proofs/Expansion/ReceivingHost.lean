import SenderPolicy.Proofs.Expansion.Failures
import SenderPolicy.Proofs.Text.Ends

/-! The receiving host.  Where a session has none, its letter stands for the host of the settings in
its normal form: without white space around it and without dots after it.  White space before those
dots is left, and so is nothing where the host consists of dots. -/

namespace SenderPolicy

open SenderPolicy.Action

namespace Settings

variable {host name : Text} {configured : Option Text}

/-- A name that is there, with no white space around it and no dot at its end. -/
structure IsUsable (name : Text) : Prop where
  ne_nil : name ≠ []
  head : ∀ c, name.head? = some c → Text.isBlank c = false
  last : ∀ c, name.getLast? = some c → Text.isBlank c = false ∧ c ≠ '.'

/-- The name that a host in the settings gives: none and a blank one the unknown host, and a usable
name with dots after it and white space around them itself. -/
inductive Gives : Option Text → Text → Prop
  | missing : Gives none unknownHost
  | blank {host : Text} : (∀ c ∈ host, Text.isBlank c = true) → Gives (some host) unknownHost
  | name {before name dots after : Text} : (∀ c ∈ before, Text.isBlank c = true) →
      IsUsable name → (∀ c ∈ dots, c = '.') → (∀ c ∈ after, Text.isBlank c = true) →
      Gives (some (before ++ (name ++ dots) ++ after)) name

theorem isUsable_unknownHost : IsUsable unknownHost := by
  refine ⟨by decide, ?_, ?_⟩
  · rintro c ⟨⟩
    decide
  · rintro c ⟨⟩
    decide

theorem Gives.isUsable (h : Gives configured name) : IsUsable name := by
  cases h with
  | missing => exact isUsable_unknownHost
  | blank => exact isUsable_unknownHost
  | name _ hname => exact hname

theorem hostName_of_blank (h : ∀ c ∈ host, Text.isBlank c = true) :
    hostName host = unknownHost := by
  rw [hostName, Text.trim_eq_nil_iff.2 h]
  rfl

theorem hostName_of_trim (h : Text.trim Text.isBlank host ≠ []) :
    hostName host = (Text.trim Text.isBlank host).dropFinalDots := if_neg h

/-- What a host that is not blank consists of: its normal form, dots after that, and white space
around both. -/
theorem exists_hostName_append (h : Text.trim Text.isBlank host ≠ []) :
    ∃ before dots after, host = before ++ (hostName host ++ dots) ++ after ∧
      Text.trim Text.isBlank host = hostName host ++ dots ∧
      (∀ c ∈ before, Text.isBlank c = true) ∧ (∀ c ∈ dots, c = '.') ∧
      ∀ c ∈ after, Text.isBlank c = true := by
  obtain ⟨before, after, hhost, hbefore, hafter⟩ := Text.exists_trim_append Text.isBlank host
  obtain ⟨dots, htrim, hdots⟩ :=
    Text.exists_dropTrailing_append (· == '.') (Text.trim Text.isBlank host)
  have htrim : Text.trim Text.isBlank host = hostName host ++ dots := by
    rw [hostName_of_trim h]
    exact htrim
  rw [htrim] at hhost
  exact ⟨before, dots, after, hhost, htrim, hbefore, by simpa using hdots, hafter⟩

theorem getLast?_hostName (host : Text) : (hostName host).getLast? ≠ some (.scalar '.') := by
  by_cases h : Text.trim Text.isBlank host = []
  · rw [hostName_of_blank (Text.trim_eq_nil_iff.1 h)]
    decide
  · rw [hostName_of_trim h]
    exact Text.getLast?_dropFinalDots _

theorem head?_hostName {c : Character} (h : (hostName host).head? = some c) :
    Text.isBlank c = false := by
  by_cases hblank : Text.trim Text.isBlank host = []
  · rw [hostName_of_blank (Text.trim_eq_nil_iff.1 hblank)] at h
    exact isUsable_unknownHost.head c h
  · rw [hostName_of_trim hblank] at h
    exact Text.head?_trim (Text.head?_dropTrailing h)

theorem IsUsable.trim_append (h : IsUsable name) {before dots after : Text}
    (hbefore : ∀ c ∈ before, Text.isBlank c = true) (hdots : ∀ c ∈ dots, c = '.')
    (hafter : ∀ c ∈ after, Text.isBlank c = true) :
    Text.trim Text.isBlank (before ++ (name ++ dots) ++ after) = name ++ dots := by
  refine Text.trim_append_append hbefore hafter ?_ ?_
  · intro c hc
    obtain ⟨first, rest, hname⟩ := List.exists_cons_of_ne_nil h.ne_nil
    rw [hname] at hc
    exact h.head c (by rw [hname]; exact hc)
  · intro c hc
    rw [List.getLast?_append] at hc
    cases hlast : dots.getLast? with
    | none =>
      rw [hlast] at hc
      exact (h.last c hc).1
    | some d =>
      rw [hlast] at hc
      obtain rfl : d = c := Option.some.inj hc
      rw [hdots d (List.mem_of_getLast? hlast)]
      decide

theorem IsUsable.hostName_append (h : IsUsable name) {before dots after : Text}
    (hbefore : ∀ c ∈ before, Text.isBlank c = true) (hdots : ∀ c ∈ dots, c = '.')
    (hafter : ∀ c ∈ after, Text.isBlank c = true) :
    hostName (before ++ (name ++ dots) ++ after) = name := by
  have htrim := h.trim_append hbefore hdots hafter
  have hdot : name.getLast? ≠ some (.scalar '.') := fun hlast => (h.last '.' hlast).2 rfl
  have hne : Text.trim Text.isBlank (before ++ (name ++ dots) ++ after) ≠ [] := by
    rw [htrim]
    exact List.append_ne_nil_of_left_ne_nil h.ne_nil dots
  rw [hostName_of_trim hne, htrim, Text.dropFinalDots,
    Text.dropTrailing_append name (by simpa using hdots)]
  exact Text.dropFinalDots_eq_self hdot

/-- A text is its own normal form exactly if it is usable. -/
theorem hostName_eq_self_iff : hostName host = host ↔ IsUsable host := by
  constructor
  · intro h
    by_cases hblank : Text.trim Text.isBlank host = []
    · rw [← h, hostName_of_blank (Text.trim_eq_nil_iff.1 hblank)]
      exact isUsable_unknownHost
    obtain ⟨before, dots, after, hhost, htrim, -⟩ := exists_hostName_append hblank
    -- The host is as long as its normal form, so nothing was taken off it.
    have hdots : dots = [] := by
      have hlength := congrArg List.length hhost
      rw [h] at hlength
      simp only [List.length_append] at hlength
      exact List.length_eq_zero_iff.1 (by omega)
    rw [h, hdots, List.append_nil] at htrim
    rw [htrim] at hblank
    refine ⟨hblank, fun c hc => ?_, fun c hc => ⟨?_, ?_⟩⟩
    · rw [← htrim] at hc
      exact Text.head?_trim hc
    · rw [← htrim] at hc
      exact Text.getLast?_dropTrailing hc
    · rintro rfl
      rw [← h] at hc
      exact getLast?_hostName host hc
  · intro h
    have hname := @IsUsable.hostName_append host h [] [] []
    simpa using hname

/-- The normal form of a host is usable exactly if the host gives a name, and then it is that
name. -/
theorem gives_iff :
    Gives configured name ↔
      (configured.map hostName).getD unknownHost = name ∧ IsUsable name := by
  constructor
  · intro h
    refine ⟨?_, h.isUsable⟩
    cases h with
    | missing => rfl
    | blank hblank => exact hostName_of_blank hblank
    | name hbefore hname hdots hafter => exact hname.hostName_append hbefore hdots hafter
  · rintro ⟨rfl, husable⟩
    cases configured with
    | none => exact .missing
    | some host =>
      show Gives (some host) (hostName host)
      by_cases hblank : Text.trim Text.isBlank host = []
      · rw [hostName_of_blank (Text.trim_eq_nil_iff.1 hblank)]
        exact .blank (Text.trim_eq_nil_iff.1 hblank)
      · obtain ⟨before, dots, after, hhost, -, hbefore, hdots, hafter⟩ :=
          exists_hostName_append hblank
        have hgives : Gives (some (before ++ (hostName host ++ dots) ++ after)) (hostName host) :=
          .name hbefore husable hdots hafter
        rwa [← hhost] at hgives

/-- Of white space and dots, only white space is taken for a host that is missing. -/
theorem hostName_eq_unknownHost_iff (h : ∀ c ∈ host, Text.isBlank c = true ∨ c = '.') :
    hostName host = unknownHost ↔ Character.scalar '.' ∉ host := by
  constructor
  · intro heq hdot
    have htrim : Text.trim Text.isBlank host ≠ [] := fun hblank =>
      absurd (Text.trim_eq_nil_iff.1 hblank '.' hdot) (by decide)
    obtain ⟨before, dots, after, hhost, -⟩ := exists_hostName_append htrim
    have hletter : Character.scalar 'u' ∈ unknownHost := by decide
    have hmem : Character.scalar 'u' ∈ host := by
      rw [hhost, heq]
      exact List.mem_append_left _ (List.mem_append_right _ (List.mem_append_left _ hletter))
    exact absurd (h 'u' hmem) (by decide)
  · intro hdot
    refine hostName_of_blank fun c hc => (h c hc).resolve_right ?_
    rintro rfl
    exact hdot hc

end Settings

namespace Expander

open Settings

/-- Where a session has no receiving host of its own, the letter for it has a value, which ends in
no dot and begins with no white space.  The value is usable, and its own normal form, exactly if the
settings give a name, and then it is this name.  Where the settings have nothing but white space and
dots, it is the unknown host exactly if there is no dot. -/
theorem receivingHost_isUsable_iff (settings : Settings) (cache : Cache) (session : Session)
    (hsession : session.receivingHost = none ∨ session.receivingHost = some []) (e : Environment)
    (s : State) :
    ∃ value, exec (resolve ⟨.ofSettings settings, cache⟩ session .receivingHost) e s =
        (.ok value, s) ∧
      value.getLast? ≠ some (.scalar '.') ∧ (∀ c, value.head? = some c → Text.isBlank c = false) ∧
      (∀ name, Gives settings.receivingHost name → value = name) ∧
      (IsUsable value ↔ ∃ name, Gives settings.receivingHost name) ∧
      (hostName value = value ↔ ∃ name, Gives settings.receivingHost name) ∧
      ∀ host, settings.receivingHost = some host →
        (∀ c ∈ host, Text.isBlank c = true ∨ c = '.') →
        (value = unknownHost ↔ Character.scalar '.' ∉ host) := by
  let value := settings.receivingHostName
  have hresolve : exec (resolve ⟨.ofSettings settings, cache⟩ session .receivingHost) e s =
      (.ok value, s) := by
    rw [resolve, Tuning.receivingHostName_ofSettings]
    rcases hsession with hnone | hempty
    · rw [hnone]
      rfl
    · rw [hempty]
      rfl
  have husable : IsUsable value ↔ ∃ name, Gives settings.receivingHost name := by
    constructor
    · intro h
      exact ⟨value, gives_iff.2 ⟨rfl, h⟩⟩
    · rintro ⟨name, hgives⟩
      obtain ⟨rfl, h⟩ := gives_iff.1 hgives
      exact h
  refine ⟨value, hresolve, ?_, ?_, fun name hgives => (gives_iff.1 hgives).1, husable,
    hostName_eq_self_iff.trans husable, ?_⟩
  · show ((settings.receivingHost.map hostName).getD unknownHost).getLast? ≠ some (.scalar '.')
    cases settings.receivingHost with
    | none => decide
    | some host => exact getLast?_hostName host
  · show ∀ c, ((settings.receivingHost.map hostName).getD unknownHost).head? = some c → _
    cases settings.receivingHost with
    | none => exact isUsable_unknownHost.head
    | some host => exact fun c => head?_hostName
  · intro host hhost hchars
    have hvalue : value = hostName host := by
      show (settings.receivingHost.map hostName).getD unknownHost = _
      rw [hhost]
      rfl
    rw [hvalue]
    exact hostName_eq_unknownHost_iff hchars

/-- Dots after a name and white space around it are taken off it. -/
theorem receivingHost_isUsable_iff_padded :
    let settings : Settings := { receivingHost := some (" mx.example.. " : Text) }
    (bareSession.receivingHost = none ∨ bareSession.receivingHost = some []) ∧
      exec (resolve ⟨.ofSettings settings, ⟨.memory, []⟩⟩ bareSession .receivingHost)
        (blank {} .documented) {} = (.ok ("mx.example" : Text), {}) ∧
      IsUsable ("mx.example" : Text) := by
  intro settings
  obtain ⟨value, hresolve, -, -, hname, husable, -⟩ := receivingHost_isUsable_iff settings
    ⟨.memory, []⟩ bareSession (.inl rfl) (blank {} .documented) {}
  have hgives : Gives settings.receivingHost ("mx.example" : Text) := by
    have hblank : ∀ c ∈ (" " : Text), Text.isBlank c = true :=
      List.forall_mem_singleton.2 (by decide)
    have hdots : ∀ c ∈ (".." : Text), c = '.' := by simp
    refine @Gives.name " " ("mx.example" : Text) (".." : Text) " " hblank ?_ hdots hblank
    refine ⟨by decide, ?_, ?_⟩
    · rintro c ⟨⟩
      decide
    · rintro c ⟨⟩
      decide
  obtain rfl := hname _ hgives
  exact ⟨.inl rfl, hresolve, husable.2 ⟨_, hgives⟩⟩

/-- A host of dots alone leaves nothing, and one with white space between dots leaves white space at
the end. -/
theorem receivingHost_not_isUsable :
    let value (host : Text) : Except Failure Text :=
      (exec (resolve ⟨.ofSettings { receivingHost := some host }, ⟨.memory, []⟩⟩ bareSession
        .receivingHost) (blank {} .documented) {}).1
    (value ". ." = .ok (". " : Text) ∧ ¬IsUsable ". " ∧ hostName ". " ≠ (". " : Text)) ∧
      value "..." = .ok [] ∧ ¬IsUsable [] ∧ hostName [] ≠ [] := by
  intro value
  refine ⟨⟨by decide +kernel, ?_, by decide +kernel⟩, by decide +kernel, ?_, by decide +kernel⟩
  · exact fun h => absurd (h.last ' ' rfl).1 (by decide)
  · exact fun h => h.ne_nil rfl

end Expander

end SenderPolicy
