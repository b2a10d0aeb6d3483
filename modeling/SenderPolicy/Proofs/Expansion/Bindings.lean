import SenderPolicy.Proofs.Expansion.Effects
import SenderPolicy.Proofs.Expansion.Rejection
import SenderPolicy.Proofs.MacroString.Restriction

/-! What an expansion reads of its session.  The letters of a macro string name bindings, and two
sessions that agree on these bindings cannot be told apart by expanding it, in whatever manner: the
text or the failure is the same, and so are the questions, the log and the cache.  A string that is
rejected reads nothing. -/

namespace SenderPolicy

open SenderPolicy.Action

/-- Two sessions have the same bindings for what a letter stands for.  The validated name is one
for the domain in any case. -/
def Session.AgreeOn (a b : Session) : Letter → Prop
  | .sender => a.sender = b.sender
  | .localPart => a.localPart = b.localPart
  | .senderDomain => a.senderDomain = b.senderDomain
  | .currentDomain => a.currentDomain = b.currentDomain
  | .clientAddress | .readableAddress | .addressVersion => a.client = b.client
  | .validatedName => a.client = b.client ∧ a.currentDomain.lower = b.currentDomain.lower
  | .heloDomain => a.heloDomain = b.heloDomain
  | .receivingHost => a.receivingHost = b.receivingHost
  | .timestamp => a.timestamp = b.timestamp

namespace Session

variable {letter : Letter}

/-- A session that moves to another domain keeps what no letter of a domain stands for. -/
theorem agreeOn_withDomain (hdomain : letter ≠ .currentDomain) (hname : letter ≠ .validatedName)
    (session : Session) (domain : Text) : (session.withDomain domain).AgreeOn session letter := by
  cases letter with
  | currentDomain => exact absurd rfl hdomain
  | validatedName => exact absurd rfl hname
  | _ => exact rfl

/-- The time and the receiving host are for explanations only. -/
theorem agreeOn_of_not_onlyInExplanation (h : letter.onlyInExplanation = false) (session : Session)
    (timestamp : Int) (receivingHost : Option Text) :
    { session with timestamp, receivingHost }.AgreeOn session letter := by
  cases letter with
  | timestamp => cases h
  | receivingHost => cases h
  | validatedName => exact ⟨rfl, rfl⟩
  | _ => exact rfl

end Session

namespace Expander

variable {x : Expander} {a b : Session} {letter : Letter} {pieces : List Piece}
  {letters : List Character} {value : Text}

theorem resolve_congr (h : a.AgreeOn b letter) : x.resolve a letter = x.resolve b letter := by
  cases letter with
  | sender => exact congrArg pure h
  | localPart => exact congrArg pure h
  | senderDomain => exact congrArg pure h
  | currentDomain => exact congrArg pure h
  | clientAddress =>
    have hclient : a.client = b.client := h
    rw [resolve, resolve, hclient]
  | validatedName =>
    obtain ⟨hclient, hdomain⟩ := h
    rw [resolve, resolve, hclient, ValidatedName.preferred_congr hdomain]
  | heloDomain =>
    have hhelo : a.heloDomain = b.heloDomain := h
    rw [resolve, resolve, hhelo]
  | readableAddress => exact congrArg (fun client => pure (Address.toText client)) h
  | receivingHost =>
    have hhost : a.receivingHost = b.receivingHost := h
    rw [resolve, resolve, hhost]
  | timestamp =>
    have htimestamp : a.timestamp = b.timestamp := h
    rw [resolve, resolve, htimestamp]
  | addressVersion => exact congrArg (fun client => pure (Address.label client)) h

theorem expandPiece_congr {piece : Piece}
    (h : ∀ token : Token, piece = .token token → a.AgreeOn b token.letter) :
    x.expandPiece a piece = x.expandPiece b piece := by
  cases piece with
  | literal text => rfl
  | token token => rw [expandPiece, expandPiece, resolve_congr (h token rfl)]

theorem expandPieces_congr
    (h : ∀ token : Token, .token token ∈ pieces → a.AgreeOn b token.letter) :
    x.expandPieces a pieces = x.expandPieces b pieces := by
  induction pieces with
  | nil => rfl
  | cons piece pieces ih =>
    have hpiece : x.expandPiece a piece = x.expandPiece b piece :=
      expandPiece_congr fun token htoken => h token (htoken ▸ List.mem_cons_self)
    rw [expandPieces_cons, expandPieces_cons, hpiece,
      ih fun token htoken => h token (List.mem_cons_of_mem _ htoken)]

/-- The letters of a value are those of the macros to which it is scanned.  No letter is one of a
value that is rejected. -/
def HasLetter (letters : List Character) (value : Text) (letter : Letter) : Prop :=
  ∃ pieces, MacroString.scan letters value = .ok pieces ∧
    ∃ token : Token, .token token ∈ pieces ∧ token.letter = letter

theorem hasLetter_iff (h : MacroString.scan letters value = .ok pieces) :
    HasLetter letters value letter ↔
      ∃ token : Token, .token token ∈ pieces ∧ token.letter = letter := by
  simp [HasLetter, h]

theorem expand_congr (h : ∀ letter, HasLetter letters value letter → a.AgreeOn b letter) :
    x.expand a value letters = x.expand b value letters := by
  cases hscan : MacroString.scan letters value with
  | error fault =>
    unfold expand
    rw [hscan]
  | ok pieces =>
    rw [expand_of_scan hscan, expand_of_scan hscan]
    exact expandPieces_congr fun token htoken => h _ ((hasLetter_iff hscan).2 ⟨token, htoken, rfl⟩)

theorem expandDomainSpec_congr
    (h : x.expand a value Letter.domainSpecChars = x.expand b value Letter.domainSpecChars) :
    x.expandDomainSpec a value = x.expandDomainSpec b value := by
  rw [expandDomainSpec, expandDomainSpec, h]

theorem HasLetter.not_onlyInExplanation
    (h : HasLetter Letter.domainSpecChars value letter) : letter.onlyInExplanation = false := by
  obtain ⟨pieces, hscan, token, htoken, rfl⟩ := h
  have hmem := (MacroString.scan_eq_ok_iff.1 hscan).2 token htoken
  exact Letter.char_mem_domainSpecChars.1 hmem

theorem expandTerm_congr {session : Session} {qualifier mechanism other another : Text}
    (h : mechanism.lower = "exp" ↔ another.lower = "exp") :
    x.expandTerm session ⟨qualifier, mechanism, value⟩ =
      x.expandTerm session ⟨other, another, value⟩ := by
  have hsame : (Term.mk qualifier mechanism value).isExplanation =
      (Term.mk other another value).isExplanation := by
    rw [Term.isExplanation, Term.isExplanation, Bool.eq_iff_iff, beq_iff_eq, beq_iff_eq]
    exact h
  rw [expandTerm, expandTerm, hsame]

end Expander

namespace Manner

variable {x : Expander} {a b : Session} {manner : Manner} {value : Text} {fault : ScanFault}
  {e : Environment}

/-- Every manner reads its session through the expansion of the string alone. -/
theorem expand_congr
    (h : x.expand a value manner.letters = x.expand b value manner.letters) :
    manner.expand x a value = manner.expand x b value := by
  cases manner with
  | free letters => exact h
  | domainSpec => exact Expander.expandDomainSpec_congr h
  | explanation => exact h
  | term qualifier mechanism =>
    show Reporting.guarded _ = Reporting.guarded _
    congr 1
    by_cases hterm : (Term.mk qualifier mechanism []).isExplanation = true
    · rw [letters, if_pos hterm] at h
      exact (if_pos hterm).trans (h.trans (if_pos hterm).symm)
    · rw [letters, if_neg hterm] at h
      rw [if_neg (by exact hterm), if_neg (by exact hterm)]
      exact Expander.expandDomainSpec_congr h

/-- A string that is rejected is rejected for every session in the same way. -/
theorem expand_fails_of_fault (h : MacroString.scan manner.letters value = .error fault)
    (x : Expander) (e : Environment) (s : State) :
    ∃ failure after, ∀ session,
      exec (manner.expand x session value) e s = (.error failure, after) := by
  cases manner with
  | free letters => exact ⟨_, _, fun session => Expander.exec_expand_of_fault h x session e s⟩
  | domainSpec => exact ⟨_, _, fun session => exec_expandDomainSpec_of_fault h x session e s⟩
  | explanation => exact ⟨_, _, fun session => Expander.exec_expand_of_fault h x session e s⟩
  | term qualifier mechanism =>
    obtain ⟨failure, after, hguarded⟩ := Reporting.exists_exec_guarded (.ofScan value fault) e
      { s with trace := s.trace ++ (Expander.rejection (.ofScan value fault)).map .log }
    exact ⟨failure, after, fun session =>
      hguarded _ s (exec_unguarded_of_fault h x session e s)⟩

/-- The failure is that of the fault, where the settings of the process are valid. -/
theorem expand_error_of_fault (h : MacroString.scan manner.letters value = .error fault)
    {process : Settings} (he : e.settings = .ok process) (x : Expander) (session : Session)
    (s : State) :
    (exec (manner.expand x session value) e s).1 = .error (.ofScan value fault) := by
  by_cases hkind : (Failure.ofScan value fault).kind.isExpansion = true
  · rw [exec_expand_of_isExpansion h hkind]
  · rw [exec_expand_of_not_isExpansion h (Bool.eq_false_iff.2 hkind) he]

end Manner

namespace Expander

/-- An expansion depends on its session only through the bindings of the letters in its string, and
not at all where the string is rejected.  So a domain specification depends on no time and on no
receiving host, and a string without the letters of a domain on no domain.  A term depends on its
qualifier not at all, and on its mechanism only through whether this is the one of explanations. -/
theorem expand_reads_bindings (x : Expander) (value : Text) (e : Environment) (s : State) :
    (∀ (manner : Manner) (a b : Session),
      (∀ letter, HasLetter manner.letters value letter → a.AgreeOn b letter) →
      exec (manner.expand x a value) e s = exec (manner.expand x b value) e s) ∧
    (∀ (manner : Manner) fault, MacroString.scan manner.letters value = .error fault →
      (∃ failure after, ∀ session,
        exec (manner.expand x session value) e s = (.error failure, after)) ∧
      ∀ process session, e.settings = .ok process →
        (exec (manner.expand x session value) e s).1 = .error (.ofScan value fault)) ∧
    (∀ (session : Session) timestamp receivingHost,
      exec (x.expandDomainSpec { session with timestamp, receivingHost } value) e s =
        exec (x.expandDomainSpec session value) e s) ∧
    (∀ (manner : Manner) (session : Session) domain,
      ¬ HasLetter manner.letters value .currentDomain →
      ¬ HasLetter manner.letters value .validatedName →
      exec (manner.expand x (session.withDomain domain) value) e s =
        exec (manner.expand x session value) e s) ∧
    ∀ (session : Session) (qualifier mechanism other another : Text),
      (mechanism.lower = "exp" ↔ another.lower = "exp") →
      exec (x.expandTerm session ⟨qualifier, mechanism, value⟩) e s =
        exec (x.expandTerm session ⟨other, another, value⟩) e s := by
  have hreads (manner : Manner) (a b : Session)
      (h : ∀ letter, HasLetter manner.letters value letter → a.AgreeOn b letter) :
      exec (manner.expand x a value) e s = exec (manner.expand x b value) e s := by
    rw [Manner.expand_congr (expand_congr h)]
  refine ⟨hreads, ?_, ?_, ?_, ?_⟩
  · intro manner fault hfault
    exact ⟨Manner.expand_fails_of_fault hfault x e s,
      fun _ session he => Manner.expand_error_of_fault hfault he x session s⟩
  · intro session timestamp receivingHost
    apply hreads .domainSpec
    intro letter hletter
    exact Session.agreeOn_of_not_onlyInExplanation hletter.not_onlyInExplanation session _ _
  · intro manner session domain hdomain hname
    apply hreads manner
    intro letter hletter
    apply Session.agreeOn_withDomain
    · rintro rfl
      exact hdomain hletter
    · rintro rfl
      exact hname hletter
  · intro session qualifier mechanism other another h
    rw [expandTerm_congr h]

/-- Sessions that share the client and the domain in any case have one explanation of both, which
holds the name that a lookup finds; and a string of the client's address is the same for another
domain. -/
theorem expand_reads_bindings_mail :
    let session := mailSession (.v4 #v[192, 0, 2, 1])
    let other : Session := { session with
      sender := "b@other", currentDomain := "EXAMPLE", heloDomain := some "helo", timestamp := 2 }
    let value : Text := "%{p}/%{i}"
    session ≠ other ∧
      (exec (mailExpander.expandExplanation session value) mailEnvironment {}).1 =
        .ok ("mail.example/192.0.2.1" : Text) ∧
      exec (mailExpander.expandExplanation other value) mailEnvironment {} =
        exec (mailExpander.expandExplanation session value) mailEnvironment {} ∧
      exec (mailExpander.expandDomainSpec (session.withDomain "elsewhere.") "%{i}")
          mailEnvironment {} =
        exec (mailExpander.expandDomainSpec session "%{i}") mailEnvironment {} := by
  intro session other value
  obtain ⟨hreads, -⟩ := expand_reads_bindings mailExpander value mailEnvironment {}
  obtain ⟨-, -, -, hdomain, -⟩ :=
    expand_reads_bindings mailExpander "%{i}" mailEnvironment {}
  refine ⟨by decide, by decide +kernel, ?_, ?_⟩
  · apply hreads .explanation
    intro letter hletter
    have hscan : MacroString.scan Letter.allChars value = .ok
        [.token { letter := .validatedName }, .literal "/", .token { letter := .clientAddress }] :=
      rfl
    obtain ⟨token, htoken, rfl⟩ := (hasLetter_iff hscan).1 hletter
    simp only [List.mem_cons, Piece.token.injEq, List.not_mem_nil, reduceCtorEq, false_or,
      or_false] at htoken
    rcases htoken with rfl | rfl
    · exact ⟨rfl, by decide⟩
    · exact rfl
  · have hscan : MacroString.scan Letter.domainSpecChars "%\x7bi\x7d" =
        .ok [.token { letter := .clientAddress }] := rfl
    have hletter {letter : Letter} (h : HasLetter Letter.domainSpecChars "%\x7bi\x7d" letter) :
        letter = .clientAddress := by
      obtain ⟨token, htoken, rfl⟩ := (hasLetter_iff hscan).1 h
      rw [Piece.token.inj (List.mem_singleton.1 htoken)]
    exact hdomain .domainSpec session _ (fun h => nomatch hletter h) fun h => nomatch hletter h

end Expander

end SenderPolicy
