import SenderPolicy.Proofs.Expansion.PointerName

/-! Sessions and what is normal about them.  The sender of a session has a local part and a domain,
the domain of the check ends in no dot, and the client is not a mapped address.  This holds when a
session is created, and it stays true as the check moves from domain to domain.  A session in this
form is the one that its own values make, and the macros of its local part and of its domain give
its sender. -/

namespace SenderPolicy

open SenderPolicy.Action

/-- Whether a request gives its time as a whole number of seconds, if it gives one. -/
def CheckRequest.HasWholeTime (request : CheckRequest) : Prop :=
  ∀ time, request.time = some time → ∃ n : Int, time = .seconds n

namespace Session

variable {s : Session} {request : CheckRequest} {now : Rat}

/-! ### Creation -/

def timestampAt (request : CheckRequest) (now : Rat) : Except RequestFault Int :=
  match request.time with
  | some time => timestampOf time
  | none => .ok (wholeSeconds now)

/-- The session of a request whose time and whose client have been read. -/
def made (request : CheckRequest) (timestamp : Int) (client : Address) : Session where
  sender := completeSender request.sender
  currentDomain := request.currentDomain.dropFinalDots
  client := client
  heloDomain := request.heloDomain
  receivingHost := request.receivingHost
  timestamp := timestamp

theorem create_eq_ok_iff :
    create request now = .ok s ↔ Character.scalar '@' ∈ request.sender ∧ ∃ timestamp client,
      timestampAt request now = .ok timestamp ∧ clientOf request.client = .ok client ∧
      s = made request timestamp client := by
  by_cases hat : Character.scalar '@' ∈ request.sender
  · have hcreate : create request now = (timestampAt request now).bind fun timestamp =>
        (clientOf request.client).map (made request timestamp) := by
      have hcontains : request.sender.contains '@' = true := by simpa using hat
      simp only [create, hcontains, Bool.not_true, Bool.false_eq_true, if_false, timestampAt]
      cases request.time with
      | none => cases clientOf request.client <;> rfl
      | some time => cases timestampOf time <;> cases clientOf request.client <;> rfl
    rw [hcreate]
    rcases timestampAt request now with fault | timestamp
    · simp [Except.bind]
    · rcases clientOf request.client with fault | client
      · simp [Except.bind, Except.map]
      · simp [Except.bind, Except.map, hat, eq_comm]
  · simp [create, hat, bind, Except.bind]

theorem wholeSeconds_intCast (n : Int) : wholeSeconds n = n := by
  simp [wholeSeconds]

/-- A whole number of seconds is kept. -/
theorem timestampOf_intCast (n : Int) : timestampOf (.seconds n) = .ok n := by
  rw [timestampOf, wholeSeconds_intCast]

theorem exists_timestampAt (h : request.HasWholeTime) (now : Rat) :
    ∃ timestamp, timestampAt request now = .ok timestamp := by
  cases htime : request.time with
  | none => exact ⟨_, by rw [timestampAt, htime]⟩
  | some time =>
    obtain ⟨n, rfl⟩ := h time htime
    refine ⟨n, ?_⟩
    rw [timestampAt, htime]
    exact timestampOf_intCast n

/-- An address is a client as it is, and a text if it is the text of an address. -/
theorem exists_clientOf_iff {source : ClientSource} :
    (∃ client, clientOf source = .ok client) ↔
      ∀ text, source = .text text → ∃ client, Address.ofClient? text = some client := by
  cases source with
  | text t =>
    simp only [clientOf, clientAddress, ClientSource.text.injEq, forall_eq']
    cases Address.ofClient? t with
    | none => simp
    | some client => simp
  | address a => simp [clientOf]

theorem isClient_of_clientOf {source : ClientSource} {client : Address}
    (h : clientOf source = .ok client) : client.IsClient := by
  cases source with
  | text t =>
    rw [clientOf, clientAddress] at h
    split at h
    · next hread =>
      obtain rfl := Except.ok.inj h
      exact .inl ⟨t, hread⟩
    · cases h
  | address a =>
    obtain rfl := Except.ok.inj h
    exact .inr ⟨a, rfl⟩

/-! ### Senders -/

/-- A sender is only changed if nothing stands before its only at sign, where the local part is put
in. -/
theorem completeSender_eq_or {sender : Text} (h : Character.scalar '@' ∈ sender) :
    completeSender sender = sender ∧ sender.beforeLast '@' ≠ [] ∨
      ∃ domain, Character.scalar '@' ∉ domain ∧ sender = .scalar '@' :: domain ∧
        completeSender sender = defaultLocalPart ++ sender := by
  by_cases hbefore : sender.beforeLast '@' = []
  · obtain ⟨domain, hdomain, rfl⟩ := (Text.beforeLast_eq_nil_iff h).1 hbefore
    refine .inr ⟨domain, hdomain, rfl, ?_⟩
    have hafter : Text.afterLast '@' (.scalar '@' :: domain) = domain :=
      @Text.afterLast_append_cons '@' [] domain hdomain
    rw [completeSender, if_pos hbefore, hafter]
  · exact .inl ⟨if_neg hbefore, hbefore⟩

theorem beforeLast_completeSender {sender : Text} (h : Character.scalar '@' ∈ sender) :
    Character.scalar '@' ∈ completeSender sender ∧ (completeSender sender).beforeLast '@' ≠ [] := by
  rcases completeSender_eq_or h with ⟨heq, hbefore⟩ | ⟨domain, hdomain, rfl, heq⟩
  · rw [heq]
    exact ⟨h, hbefore⟩
  · rw [heq, Text.beforeLast_append_cons hdomain]
    exact ⟨by simp, by decide⟩

/-- A sender that has a local part is complete. -/
theorem completeSender_of_beforeLast {sender : Text} (h : sender.beforeLast '@' ≠ []) :
    completeSender sender = sender := if_neg h

/-! ### Sessions in normal form -/

structure IsNormal (s : Session) : Prop where
  at_mem : Character.scalar '@' ∈ s.sender
  localPart_ne_nil : s.localPart ≠ []
  getLast?_currentDomain : s.currentDomain.getLast? ≠ some (.scalar '.')
  isClient : s.client.IsClient

theorem isNormal_of_create (h : create request now = .ok s) : s.IsNormal := by
  obtain ⟨hat, timestamp, client, -, hclient, rfl⟩ := create_eq_ok_iff.1 h
  obtain ⟨hmem, hlocal⟩ := beforeLast_completeSender hat
  exact ⟨hmem, hlocal, Text.getLast?_dropFinalDots _, isClient_of_clientOf hclient⟩

theorem IsNormal.withDomain (h : s.IsNormal) (domain : Text) : (s.withDomain domain).IsNormal :=
  ⟨h.at_mem, h.localPart_ne_nil, Text.getLast?_dropFinalDots domain, h.isClient⟩

theorem IsNormal.foldl (h : s.IsNormal) (domains : List Text) :
    (domains.foldl Session.withDomain s).IsNormal := by
  induction domains generalizing s with
  | nil => exact h
  | cons domain domains ih => exact ih (h.withDomain domain)

theorem IsNormal.localPart_append_senderDomain (h : s.IsNormal) :
    s.localPart ++ .scalar '@' :: s.senderDomain = s.sender :=
  Text.beforeLast_append_afterLast h.at_mem

/-! ### Moving from domain to domain -/

theorem withDomain_withDomain (s : Session) (domain other : Text) :
    (s.withDomain other).withDomain domain = s.withDomain domain := rfl

/-- Only the last domain counts. -/
theorem foldl_withDomain (s : Session) (domains : List Text) (domain : Text) :
    (domains ++ [domain]).foldl withDomain s = s.withDomain domain := by
  induction domains generalizing s with
  | nil => rfl
  | cons other domains ih => rw [List.cons_append, List.foldl_cons, ih, withDomain_withDomain]

theorem sender_foldl_withDomain (s : Session) (domains : List Text) :
    (domains.foldl withDomain s).sender = s.sender := by
  induction domains generalizing s with
  | nil => rfl
  | cons domain domains ih => exact ih (s.withDomain domain)

/-- To move to a domain is to start there. -/
theorem create_withDomain (h : create request now = .ok s) (domain : Text) {time : Option ClockTime}
    {later : Rat} (htime : timestampAt { request with time } later = .ok s.timestamp) :
    create { request with currentDomain := domain, time } later = .ok (s.withDomain domain) := by
  obtain ⟨hat, timestamp, client, -, hclient, rfl⟩ := create_eq_ok_iff.1 h
  exact create_eq_ok_iff.2 ⟨hat, timestamp, client, htime, hclient, rfl⟩

/-! ### The values of a session -/

/-- The request that gives a session's own values. -/
def toRequest (s : Session) : CheckRequest where
  sender := s.sender
  currentDomain := s.currentDomain
  client := .address s.client
  heloDomain := s.heloDomain
  receivingHost := s.receivingHost
  time := some (.seconds s.timestamp)

theorem IsNormal.create_toRequest (h : s.IsNormal) (now : Rat) :
    create s.toRequest now = .ok s := by
  have hclient : clientOf s.toRequest.client = .ok s.client :=
    congrArg Except.ok h.isClient.unmapped_eq
  have hmade : s = made s.toRequest s.timestamp s.client := by
    rw [made, toRequest, completeSender_of_beforeLast h.localPart_ne_nil,
      Text.dropFinalDots_eq_self h.getLast?_currentDomain]
  exact create_eq_ok_iff.2
    ⟨h.at_mem, s.timestamp, s.client, timestampOf_intCast s.timestamp, hclient, hmade⟩

end Session

/-! ### The macros of a sender -/

namespace Expander

variable {x : Expander} {session : Session} {letters : List Character} {e : Environment} {s : State}

/-- A letter alone between braces. -/
def bareItem (letter : Letter) (h : letter.char ∈ letters) : MacroString.Item letters :=
  .expression {
    letter := letter
    written := letter.char
    digits := []
    mark := none
    run := []
    written_isAlpha := by cases letter <;> rfl
    toLower_written := by cases letter <;> rfl
    letter_mem := h
    isDigit_of_mem := by simp
    length_digits := by simp
    value_ne_zero := by simp
    mark_eq := by simp
    mem_delimiters := by simp }

theorem exec_expand_sender (h : Character.scalar 's' ∈ letters) :
    exec (x.expand session "%\x7bs\x7d" letters) e s = (.ok session.sender, s) := by
  have hscan : MacroString.scan letters "%\x7bs\x7d" = .ok [.token { letter := .sender }] :=
    MacroString.scan_written [bareItem .sender h]
  have hempty : exec (x.expandPieces session []) e s = (.ok [], s) := rfl
  have hsender : exec (x.resolve session .sender) e s = (.ok session.sender, s) := rfl
  have hwhole := exec_expandPieces_token { letter := .sender }
    (Transformation.transform?_default session.sender) hsender hempty
  rw [expand_of_scan hscan, hwhole, List.append_nil]

theorem exec_expand_mailbox (hl : Character.scalar 'l' ∈ letters)
    (ho : Character.scalar 'o' ∈ letters) :
    exec (x.expand session "%\x7bl\x7d@%\x7bo\x7d" letters) e s =
      (.ok (session.localPart ++ .scalar '@' :: session.senderDomain), s) := by
  have hscan : MacroString.scan letters "%\x7bl\x7d@%\x7bo\x7d" =
      .ok [.token { letter := .localPart }, .literal "@", .token { letter := .senderDomain }] :=
    MacroString.scan_written
      [bareItem .localPart hl, .plain '@' (by decide), bareItem .senderDomain ho]
  have hempty : exec (x.expandPieces session []) e s = (.ok [], s) := rfl
  have hlocal : exec (x.resolve session .localPart) e s = (.ok session.localPart, s) := rfl
  have hdomain : exec (x.resolve session .senderDomain) e s = (.ok session.senderDomain, s) := rfl
  have hlast := exec_expandPieces_token { letter := .senderDomain }
    (Transformation.transform?_default session.senderDomain) hdomain hempty
  have hat := exec_expandPieces_literal "@" hlast
  have hwhole := exec_expandPieces_token { letter := .localPart }
    (Transformation.transform?_default session.localPart) hlocal hat
  rw [expand_of_scan hscan, hwhole, List.append_nil]
  rfl

end Expander

/-! ### All sessions -/

namespace Session

/-- A session is created for a sender with an at sign and a client with an address, if the time is a
whole number.  Wherever the check moves from there, the sender is made of a local part that is not
empty, an at sign and a domain without one, and so it is expanded; it is the sender that was given,
unless nothing stood before its only at sign; and the domain of the check ends in no dot.  Moving
leads to the same session as moving to the last domain alone and as starting there, and the values
of every session make that session. -/
theorem create_normalizes (request : CheckRequest) (now : Rat) :
    (request.HasWholeTime →
      ((∃ s, create request now = .ok s) ↔ Character.scalar '@' ∈ request.sender ∧
        ∀ text, request.client = .text text → ∃ client, Address.ofClient? text = some client)) ∧
    ∀ s, create request now = .ok s → ∀ domains : List Text,
      let derived := domains.foldl withDomain s
      derived.localPart ≠ [] ∧ Character.scalar '@' ∉ derived.senderDomain ∧
      derived.localPart ++ .scalar '@' :: derived.senderDomain = derived.sender ∧
      (∀ (x : Expander) (letters : List Character) (e : Environment) (state : State),
        Character.scalar 'l' ∈ letters → Character.scalar 'o' ∈ letters →
        Character.scalar 's' ∈ letters →
        exec (x.expand derived "%\x7bl\x7d@%\x7bo\x7d" letters) e state =
            (.ok derived.sender, state) ∧
          exec (x.expand derived "%\x7bs\x7d" letters) e state = (.ok derived.sender, state)) ∧
      (derived.sender = request.sender ∨ ∃ domain, Character.scalar '@' ∉ domain ∧
        request.sender = .scalar '@' :: domain ∧ derived.sender = "postmaster" ++ request.sender) ∧
      derived.currentDomain.getLast? ≠ some (.scalar '.') ∧
      (∀ domain, (domains ++ [domain]).foldl withDomain s = s.withDomain domain ∧
        create { request with currentDomain := domain } now = .ok (s.withDomain domain) ∧
        ∀ later, create { request with
          currentDomain := domain, time := some (.seconds s.timestamp) } later =
            .ok (s.withDomain domain)) ∧
      ∀ later, create derived.toRequest later = .ok derived := by
  constructor
  · intro htime
    obtain ⟨timestamp, htimestamp⟩ := exists_timestampAt htime now
    rw [← exists_clientOf_iff]
    constructor
    · rintro ⟨s, hs⟩
      obtain ⟨hat, -, client, -, hclient, -⟩ := create_eq_ok_iff.1 hs
      exact ⟨hat, client, hclient⟩
    · rintro ⟨hat, client, hclient⟩
      exact ⟨_, create_eq_ok_iff.2 ⟨hat, timestamp, client, htimestamp, hclient, rfl⟩⟩
  · intro s hs domains derived
    have hnormal : derived.IsNormal := (isNormal_of_create hs).foldl domains
    have hwhole := hnormal.localPart_append_senderDomain
    obtain ⟨hat, timestamp, client, htimestamp, -, hmade⟩ := create_eq_ok_iff.1 hs
    have hsender : derived.sender = completeSender request.sender := by
      rw [sender_foldl_withDomain, hmade, made]
    refine ⟨hnormal.localPart_ne_nil, Text.not_mem_afterLast '@' _, hwhole, ?_, ?_,
      hnormal.getLast?_currentDomain, ?_, hnormal.create_toRequest⟩
    · intro x letters e state hl ho hs
      exact ⟨hwhole ▸ Expander.exec_expand_mailbox hl ho, Expander.exec_expand_sender hs⟩
    · rw [hsender]
      rcases completeSender_eq_or hat with ⟨hsame, -⟩ | hpostmaster
      · exact .inl hsame
      · exact .inr hpostmaster
    · intro domain
      refine ⟨foldl_withDomain s domains domain, ?_, fun later => ?_⟩
      · exact create_withDomain hs domain (hmade ▸ htimestamp)
      · exact create_withDomain hs domain (timestampOf_intCast s.timestamp)

/-- Nothing stands before the at sign of this sender.  The check is created for an IPv4 address that
is given as a mapped one, and moves to two other domains. -/
theorem create_normalizes_postmaster :
    let request : CheckRequest := {
      sender := "@mail.example", currentDomain := "example.", client := .text " ::ffff:192.0.2.1",
      time := some (.seconds (7 : Int)) }
    let first : Session := {
      sender := "postmaster@mail.example", currentDomain := "example",
      client := .v4 #v[192, 0, 2, 1], heloDomain := none, receivingHost := none, timestamp := 7 }
    let derived : Session := { first with currentDomain := "b.example" }
    request.HasWholeTime ∧ (∃ s, create request 0 = .ok s) ∧ create request 0 = .ok first ∧
      [("a.example" : Text), ("b.example.." : Text)].foldl withDomain first = derived ∧
      (∀ (x : Expander) (e : Environment) (state : State),
        exec (x.expand derived "%\x7bl\x7d@%\x7bo\x7d" Letter.domainSpecChars) e state =
          (.ok ("postmaster@mail.example" : Text), state)) ∧
      ∀ later, create derived.toRequest later = .ok derived := by
  intro request first derived
  have htime : request.HasWholeTime := by
    intro time h
    exact ⟨7, (Option.some.inj h).symm⟩
  have hclient : ∀ text, request.client = .text text →
      ∃ client, Address.ofClient? text = some client := by
    rintro text ⟨⟩
    exact ⟨.v4 #v[192, 0, 2, 1], by decide +kernel⟩
  have hfirst : create request 0 = .ok first := by decide +kernel
  obtain ⟨hcreated, hnormal⟩ := create_normalizes request 0
  obtain ⟨-, -, -, hexpand, -, -, -, hagain⟩ :=
    hnormal first hfirst [("a.example" : Text), ("b.example.." : Text)]
  refine ⟨htime, (hcreated htime).2 ⟨by decide, hclient⟩, hfirst, by decide, ?_, hagain⟩
  intro x e state
  exact (hexpand x Letter.domainSpecChars e state (by decide) (by decide) (by decide)).1

end Session

end SenderPolicy
