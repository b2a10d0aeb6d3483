import SenderPolicy.Proofs.Expansion.Failures
import SenderPolicy.Proofs.Expansion.Rejection
import SenderPolicy.Proofs.MacroString.Restriction

/-! All failures of expansion.  In every manner an expansion ends in a fault of scanning, in one of
a macro, in one of the length of a domain, or in that of invalid process settings.  From this
follows which errors name the string and an offset in it, and that no failure comes of a macro that
is not well formed. -/

namespace SenderPolicy

open SenderPolicy.Action

namespace Reporting

theorem failsOnly_guarded {action : Action Text} {e : Environment} {p : Failure → Prop}
    (h : FailsOnly p e action) (hsettings : CoversSettings p e) :
    FailsOnly p e (guarded action) := by
  refine h.tryCatch fun failure hfailure => ?_
  by_cases hkind : failure.kind.isExpansion = true
  · simp only [hkind, Bool.not_true, Bool.false_eq_true, if_false]
    exact failsOnly_throw hfailure
  · simp only [hkind, Bool.not_false, if_true]
    refine (failsOnly_processSettings hsettings).bind fun _ => ?_
    exact (failsOnly_capture _ _ _ _).bind fun _ => failsOnly_throw hfailure

end Reporting

namespace Manner

variable {manner : Manner}

/-- The failures of expansion in a manner, with what leads to each. -/
inductive Fault (manner : Manner) (x : Expander) (session : Session) (value : Text)
    (e : Environment) : Failure → Prop
  | scan {fault : ScanFault} : MacroString.scan manner.letters value = .error fault →
      Fault manner x session value e (.ofScan value fault)
  | piece {pieces : List Piece} {failure : Failure} :
      MacroString.scan manner.letters value = .ok pieces → MacroFault x session e failure →
      Fault manner x session value e failure
  | domainLength {fault : Tuning.Fault} : x.tuning.domainLength? = .error fault →
      Fault manner x session value e (.tuning fault)
  | tooLong {pieces : List Piece} {limit : Text} :
      MacroString.scan manner.letters value = .ok pieces → x.tuning.lengthText? = some limit →
      Fault manner x session value e (.expansion { cause := .tooLong limit, value })
  | longNumber : x.tuning.lengthText? = none → Fault manner x session value e .longNumber
  | settings {faults : List Settings.Fault} : e.settings = .error faults →
      Fault manner x session value e (.settings faults)

theorem failsOnly_expand_letters {letters : List Character} (h : manner.letters = letters)
    (x : Expander) (session : Session) (value : Text) (e : Environment) :
    FailsOnly (Fault manner x session value e) e (x.expand session value letters) := by
  subst h
  cases hscan : MacroString.scan manner.letters value with
  | ok pieces =>
    exact (Expander.failsOnly_expand_of_scan hscan x session e).mono
      fun _ hfault => .piece hscan hfault
  | error fault =>
    intro s failure hfailure
    rw [Expander.exec_expand_of_fault hscan] at hfailure
    obtain rfl := Except.error.inj hfailure
    exact .scan hscan

theorem failsOnly_expandDomainSpec (h : manner.letters = Letter.domainSpecChars) (x : Expander)
    (session : Session) (value : Text) (e : Environment) :
    FailsOnly (Fault manner x session value e) e (x.expandDomainSpec session value) := by
  -- The length is looked at after the expansion, and a domain is too long only if it was scanned.
  cases hscan : MacroString.scan manner.letters value with
  | error fault =>
    rw [h] at hscan
    intro s failure hfailure
    rw [exec_expandDomainSpec_of_fault hscan] at hfailure
    obtain rfl := Except.error.inj hfailure
    exact .scan (h ▸ hscan)
  | ok pieces =>
    unfold Expander.expandDomainSpec
    refine (failsOnly_expand_letters h x session value e).bind fun text => ?_
    split
    · next fault hfault => exact failsOnly_throw (.domainLength hfault)
    · next limit? _ =>
      have hshortened {shortened domain : Text} {message : Text} :
          FailsOnly (Fault manner x session value e) e
            (if shortened ≠ domain then do
              log .expander .debug message
              pure shortened
            else pure shortened) := by
        split
        · exact (failsOnly_record _).bind fun _ => failsOnly_pure _
        · exact failsOnly_pure _
      dsimp only
      split
      · split
        · next hlimit => exact (failsOnly_throw (.tooLong hscan hlimit)).bind fun _ => hshortened
        · next hlimit => exact (failsOnly_throw (.longNumber hlimit)).bind fun _ => hshortened
      · exact hshortened

theorem failsOnly_expand (manner : Manner) (x : Expander) (session : Session) (value : Text)
    (e : Environment) :
    FailsOnly (manner.Fault x session value e) e (manner.expand x session value) := by
  cases manner with
  | free letters => exact failsOnly_expand_letters rfl x session value e
  | domainSpec => exact failsOnly_expandDomainSpec rfl x session value e
  | explanation => exact failsOnly_expand_letters rfl x session value e
  | term qualifier mechanism =>
    refine Reporting.failsOnly_guarded ?_ fun _ => .settings
    by_cases hterm : (Term.mk qualifier mechanism []).isExplanation = true
    · have hletters : (Manner.term qualifier mechanism).letters = Letter.allChars := if_pos hterm
      rw [if_pos (by exact hterm)]
      exact failsOnly_expand_letters hletters x session value e
    · have hletters : (Manner.term qualifier mechanism).letters = Letter.domainSpecChars :=
        if_neg hterm
      rw [if_neg (by exact hterm)]
      exact failsOnly_expandDomainSpec hletters x session value e

end Manner

/-! ### Offsets -/

namespace ExpansionError

variable {error : ExpansionError} {limit value : Text}

/-- The error names the string and an offset in it. -/
structure Locates (error : ExpansionError) (value : Text) : Prop where
  value_eq : error.value = some value
  zero_le : 0 ≤ error.position
  le_length : error.position ≤ value.length

/-- The errors of strings that have been scanned. -/
inductive IsLate (limit value : Text) : ExpansionError → Prop
  | unbound : IsLate limit value { cause := .unbound .heloDomain, value := some [] }
  | unresolved (fault : ResolutionError) :
      IsLate limit value { cause := .unresolved fault, value := some [] }
  | tooLong : IsLate limit value { cause := .tooLong limit, value := some value }

theorem Locates.message_eq (h : error.Locates value) :
    error.message = error.cause.message ++ " at offset " ++ Text.ofInt error.position ++ " in " ++
      value.quoted := by
  rw [message, if_neg (Int.not_lt.2 h.zero_le), h.value_eq]
  rfl

theorem IsLate.position_eq (h : IsLate limit value error) : error.position = -1 := by
  cases h <;> rfl

theorem IsLate.message_eq (h : IsLate limit value error) : error.message = error.cause.message := by
  rw [message, if_pos (by rw [h.position_eq]; decide)]

theorem not_locates (h : error.position = -1) : ¬error.Locates value := by
  intro hlocates
  have hposition := hlocates.zero_le
  rw [h] at hposition
  exact absurd hposition (by decide)

theorem locates_of_scan {letters : List Character} {fault : ScanFault}
    (hscan : MacroString.scan letters value = .error fault)
    (h : Failure.ofScan value fault = .expansion error) : error.Locates value := by
  cases fault with
  | longCount digits => cases h
  | defect d position =>
    obtain rfl := Failure.expansion.inj h
    exact ⟨rfl, Int.natCast_nonneg position,
      Int.ofNat_le.2 (MacroString.position_le_of_scan hscan)⟩

end ExpansionError

namespace Manner

variable {manner : Manner} {x : Expander} {session : Session} {value : Text} {e : Environment}
  {error : ExpansionError}

/-- An error is found by scanning, or after it. -/
theorem Fault.of_expansion (h : Fault manner x session value e (.expansion error)) :
    (∃ fault, MacroString.scan manner.letters value = .error fault ∧
        Failure.ofScan value fault = .expansion error) ∨
      (∃ pieces, MacroString.scan manner.letters value = .ok pieces) ∧
        error.IsLate x.tuning.maxDomainLength.toText value := by
  -- What scanning ends in is computed from its fault, so the failure is a variable here and an
  -- equation says that it is an error.
  generalize hfailure : Failure.expansion error = failure at h
  cases h with
  | scan hscan => exact .inl ⟨_, hscan, rfl⟩
  | @piece pieces _ hscan hmacro =>
    refine .inr ⟨⟨pieces, hscan⟩, ?_⟩
    cases hmacro with
    | unencodable => cases hfailure
    | letter hletter =>
      cases hletter with
      | unbound =>
        obtain rfl := Failure.expansion.inj hfailure
        exact .unbound
      | unresolved fault =>
        obtain rfl := Failure.expansion.inj hfailure
        exact .unresolved fault
      | _ => cases hfailure
  | domainLength => cases hfailure
  | @tooLong pieces limit hscan hlimit =>
    obtain rfl := Failure.expansion.inj hfailure
    obtain rfl := Tuning.eq_toText_of_lengthText? hlimit
    exact .inr ⟨⟨pieces, hscan⟩, .tooLong⟩
  | longNumber => cases hfailure
  | settings => cases hfailure

/-- An error names the string and an offset in it exactly if the string is not scanned, and then the
message tells both.  The errors of strings that have been scanned name no offset: a letter without a
value and a lookup that fails name no string either, and a domain that is too long names its
string, which the message does not tell. -/
theorem expand_locates_iff (manner : Manner) (x : Expander) (session : Session) (value : Text)
    (e : Environment) (s : State) (error : ExpansionError)
    (h : (exec (manner.expand x session value) e s).1 = .error (.expansion error)) :
    (error.Locates value ↔ ∃ fault, MacroString.scan manner.letters value = .error fault) ∧
    (error.Locates value → error.message =
      error.cause.message ++ " at offset " ++ Text.ofInt error.position ++ " in " ++
        value.quoted) ∧
    (¬error.Locates value → error.IsLate x.tuning.maxDomainLength.toText value ∧
      error.position = -1 ∧ error.message = error.cause.message) := by
  refine ⟨?_, ExpansionError.Locates.message_eq, ?_⟩
  · rcases (failsOnly_expand manner x session value e s _ h).of_expansion with
      ⟨fault, hscan, hfailure⟩ | ⟨⟨pieces, hscan⟩, hlate⟩
    · exact iff_of_true (ExpansionError.locates_of_scan hscan hfailure) ⟨fault, hscan⟩
    · refine iff_of_false (ExpansionError.not_locates hlate.position_eq) ?_
      rintro ⟨fault, hfault⟩
      cases hscan.symm.trans hfault
  · intro hlocates
    rcases (failsOnly_expand manner x session value e s _ h).of_expansion with
      ⟨fault, hscan, hfailure⟩ | ⟨-, hlate⟩
    · exact absurd (ExpansionError.locates_of_scan hscan hfailure) hlocates
    · exact ⟨hlate, hlate.position_eq, hlate.message_eq⟩

/-- A macro that does not end lacks its end at the end of the string. -/
theorem expand_locates_iff_open :
    let error : ExpansionError :=
      { cause := .defect .unterminated, value := some ("%\x7bd" : Text), position := 3 }
    (exec (Manner.domainSpec.expand ⟨.ofSettings {}, ⟨.memory, []⟩⟩ Expander.bareSession "%\x7bd")
        (Expander.blank {} .documented) {}).1 = .error (.expansion error) ∧
      error.Locates "%\x7bd" ∧
      error.message = "Unterminated macro at offset 3 in '%\x7bd'" := by
  intro error
  have herror : (exec (Manner.domainSpec.expand ⟨.ofSettings {}, ⟨.memory, []⟩⟩ Expander.bareSession
      "%\x7bd") (Expander.blank {} .documented) {}).1 = .error (.expansion error) := by
    decide +kernel
  obtain ⟨hiff, hmessage, -⟩ := expand_locates_iff _ _ _ _ _ _ _ herror
  have hlocates : error.Locates "%\x7bd" :=
    hiff.2 ⟨.defect .unterminated 3, by decide +kernel⟩
  exact ⟨herror, hlocates, (hmessage hlocates).trans (by decide +kernel)⟩

/-- Neither the missing HELO domain, nor the pointers that come too late, nor the domain that cannot
be shortened has an error with an offset in the string. -/
theorem expand_not_locates :
    let late : Zone := { Zone.empty with pointers := fun _ => .timeout }
    let x : Expander := ⟨.ofSettings { maxDomainLength := 1 }, ⟨.memory, []⟩⟩
    let expanded (manner : Manner) (value : Text) : Except Failure Text :=
      (exec (manner.expand x Expander.bareSession value) ⟨late, .ok {}, Clock.zero, .documented⟩
        {}).1
    let unbound : ExpansionError := { cause := .unbound .heloDomain, value := some [] }
    let unresolved : ExpansionError :=
      { cause := .unresolved ⟨"3.100.51.198.in-addr.arpa", .timeout⟩, value := some [] }
    let tooLong : ExpansionError := { cause := .tooLong "1", value := some ("ab" : Text) }
    (expanded .explanation "%\x7bh\x7d" = .error (.expansion unbound) ∧
        ¬unbound.Locates "%\x7bh\x7d") ∧
      (expanded .domainSpec "%\x7bp\x7d" = .error (.expansion unresolved) ∧
        ¬unresolved.Locates "%\x7bp\x7d") ∧
      expanded .domainSpec "ab" = .error (.expansion tooLong) ∧ ¬tooLong.Locates "ab" := by
  intro late x expanded unbound unresolved tooLong
  refine ⟨⟨?_, ExpansionError.not_locates rfl⟩, ⟨?_, ExpansionError.not_locates rfl⟩, ?_,
    ExpansionError.not_locates rfl⟩
  · decide +kernel
  · decide +kernel
  · decide +kernel

end Manner

/-! ### Macros that are resolved -/

theorem Manner.Fault.kind_mem {manner : Manner} {x : Expander} {session : Session} {value : Text}
    {e : Environment} {failure : Failure} (h : Manner.Fault manner x session value e failure) :
    failure.kind ∈ Kind.ofExpansion := by
  cases h with
  | scan => exact Failure.kind_ofScan_mem value _
  | piece _ hmacro => exact hmacro.kind_mem
  | domainLength => exact Failure.kind_tuning_mem _
  | tooLong => exact List.mem_of_elem_eq_true rfl
  | longNumber => exact List.mem_of_elem_eq_true rfl
  | settings => exact List.mem_of_elem_eq_true rfl

namespace Expander

theorem resolveText_char (x : Expander) (session : Session) (letter : Letter) :
    x.resolveText session [letter.char] = x.resolve session letter := by
  simp only [resolveText, Letter.ofChar?_char]

/-- Whatever texts are given as letters, the macros that scanning finds have a letter that is among
them and is known, a positive count and delimiters; every value is cut into parts by these, of which
at least one is kept; and no expansion fails for an unknown letter or for delimiters.  The letter of
a macro may be written as any character whose lower case, among all characters, it is. -/
theorem expand_tokens_exact (entries : List Text) (value : Text) :
    (∀ pieces token, MacroString.scan (Letter.charsOf entries) value = .ok pieces →
      .token token ∈ pieces →
      token.IsWellFormed entries ∧ token.letter.char ∈ ("slodiphcrtv" : Text) ∧
      (∀ x session, resolveText x session [token.letter.char] = x.resolve session token.letter) ∧
      ∀ raw, ∃ parts, token.parts? raw = some parts ∧ token.kept (token.ordered parts) ≠ []) ∧
    (∀ x session e s failure,
      (exec (expand x session value (Letter.charsOf entries)) e s).1 = .error failure →
      failure.kind ≠ .missingKey ∧ failure.kind ≠ .badPattern) ∧
    ∀ c offset,
      (∃ result, MacroString.step (Letter.charsOf entries) .opened offset c = .ok result) ↔
        ∃ letter : Letter, Text.lower [c] = [letter.char] ∧ [letter.char] ∈ entries := by
  refine ⟨?_, ?_, fun c offset => MacroString.exists_step_opened_iff⟩
  · intro pieces token hscan htoken
    have hwell := MacroString.isWellFormed_of_scan hscan htoken
    have hletter : token.letter.char ∈ ("slodiphcrtv" : Text) := by
      cases token.letter <;> decide
    exact ⟨hwell, hletter, fun x session => resolveText_char x session token.letter,
      hwell.exists_parts⟩
  · intro x session e s failure hfailure
    have hkind := ((Manner.free (Letter.charsOf entries)).failsOnly_expand x session value e s
      failure hfailure).kind_mem
    exact ⟨ne_of_mem_of_not_mem hkind (by decide +kernel),
      ne_of_mem_of_not_mem hkind (by decide +kernel)⟩

/-- Of a capital letter, two letters in one and a letter that is none, only the small `d` is taken:
the macro is scanned, and its count keeps the last part. -/
theorem expand_tokens_exact_entries :
    let entries : List Text := ["D", "dh", "x", "d"]
    let token : Token := { letter := .currentDomain, truncation := some 1, urlEncode := true }
    MacroString.scan (Letter.charsOf entries) "%\x7bD1\x7d" = .ok [.token token] ∧
      token.IsWellFormed entries ∧ token.parts? "b.c" = some [("b" : Text), ("c" : Text)] ∧
      token.kept (token.ordered [("b" : Text), ("c" : Text)]) ≠ [] := by
  intro entries token
  have hscan : MacroString.scan (Letter.charsOf entries) "%\x7bD1\x7d" = .ok [.token token] := by
    decide +kernel
  obtain ⟨htokens, -, -⟩ := expand_tokens_exact entries "%\x7bD1\x7d"
  obtain ⟨hwell, -, -, hparts⟩ := htokens _ token hscan List.mem_cons_self
  obtain ⟨parts, hcut, hkept⟩ := hparts "b.c"
  obtain rfl : [("b" : Text), ("c" : Text)] = parts := Option.some.inj hcut
  exact ⟨hscan, hwell, hcut, hkept⟩

end Expander

end SenderPolicy
