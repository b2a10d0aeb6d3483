import SenderPolicy.Proofs.Expansion.Pieces
import SenderPolicy.Proofs.MacroString.Faults

/-! Rejection of strings that are no macro strings.  In every manner of expansion a defect ends the
expansion in a failure of grammar, of which nothing is reported.  A truncation count that is too
long ends it in a failure of another kind, which a term reports. -/

namespace SenderPolicy

open SenderPolicy.Action

namespace Reporting

variable {action : Action Text} {e : Environment} {s after : State} {failure : Failure}

theorem exec_guarded_of_isExpansion (h : exec action e s = (.error failure, after))
    (hkind : failure.kind.isExpansion = true) :
    exec (guarded action) e s = (.error failure, after) := by
  rw [guarded, exec_tryCatch, h]
  simp [hkind]

/-- What is captured of a failure, where there is a target for reports. -/
def captured (settings : Settings) (failure : Failure) : List Event :=
  if settings.reportTarget?.isSome then [.report (.capture failure.kind failure.message)] else []

theorem exec_guarded_of_not_isExpansion {settings : Settings}
    (h : exec action e s = (.error failure, after)) (hkind : failure.kind.isExpansion = false)
    (he : e.settings = .ok settings) :
    exec (guarded action) e s =
      (.error failure, { after with trace := after.trace ++ captured settings failure }) := by
  have hsettings : exec processSettings e after = (.ok settings, after) := by
    rw [exec_processSettings, he]
    rfl
  rw [guarded, exec_tryCatch, h]
  by_cases htarget : settings.reportTarget?.isSome = true
  · simp [hkind, exec_bind, hsettings, capture, captured, htarget]
  · simp [hkind, exec_bind, hsettings, capture, captured, htarget]

/-- A failure of an action within a term ends the term in a failure that is the same for every such
action. -/
theorem exists_exec_guarded (failure : Failure) (e : Environment) (after : State) :
    ∃ other last, ∀ (action : Action Text) (s : State),
      exec action e s = (.error failure, after) →
        exec (guarded action) e s = (.error other, last) := by
  by_cases hkind : failure.kind.isExpansion = true
  · exact ⟨failure, after, fun _ _ h => exec_guarded_of_isExpansion h hkind⟩
  have hkind : failure.kind.isExpansion = false := Bool.eq_false_iff.2 hkind
  cases he : e.settings with
  | ok settings =>
    exact ⟨failure, _, fun _ _ h => exec_guarded_of_not_isExpansion h hkind he⟩
  | error faults =>
    refine ⟨.settings faults, after, fun action s h => ?_⟩
    have hsettings : exec processSettings e after = (.error (.settings faults), after) := by
      rw [exec_processSettings, he]
      rfl
    rw [guarded, exec_tryCatch, h]
    simp [hkind, exec_bind, hsettings]

/-- What ends well is not changed by the guard. -/
theorem exec_guarded_eq_ok {r : Text} :
    exec (guarded action) e s = (.ok r, after) ↔ exec action e s = (.ok r, after) := by
  rcases hrun : exec action e s with ⟨failure | text, last⟩
  · obtain ⟨other, final, hguarded⟩ := exists_exec_guarded failure e last
    rw [hguarded action s hrun]
    simp
  · rw [guarded, exec_tryCatch, hrun]

end Reporting

/-- A way to expand a string: with the letters of a list, as a domain specification, as an
explanation, or as the value of a term. -/
inductive Manner
  | free (letters : List Character)
  | domainSpec
  | explanation
  | term (qualifier mechanism : Text)

namespace Manner

variable {manner : Manner} {value : Text} {fault : ScanFault} {e : Environment} {s : State}

/-- The letters that a string may use. -/
def letters : Manner → List Character
  | .free letters => letters
  | .domainSpec => Letter.domainSpecChars
  | .explanation => Letter.allChars
  | .term qualifier mechanism =>
    if (Term.mk qualifier mechanism []).isExplanation then Letter.allChars
    else Letter.domainSpecChars

def expand (x : Expander) (session : Session) (value : Text) : Manner → Action Text
  | .free letters => x.expand session value letters
  | .domainSpec => x.expandDomainSpec session value
  | .explanation => x.expandExplanation session value
  | .term qualifier mechanism => x.expandTerm session ⟨qualifier, mechanism, value⟩

/-- What is reported of a failure: a term reports what is no failure of expansion. -/
def reported (settings : Settings) (failure : Failure) : Manner → List Event
  | .term _ _ => Reporting.captured settings failure
  | _ => []

theorem exec_expandDomainSpec_of_fault
    (h : MacroString.scan Letter.domainSpecChars value = .error fault) (x : Expander)
    (session : Session) (e : Environment) (s : State) :
    exec (x.expandDomainSpec session value) e s =
      (.error (.ofScan value fault),
        { s with trace := s.trace ++ (Expander.rejection (.ofScan value fault)).map .log }) := by
  rw [Expander.expandDomainSpec, exec_bind, Expander.exec_expand_of_fault h]

/-- What is done within a term. -/
theorem exec_unguarded_of_fault {qualifier mechanism : Text}
    (h : MacroString.scan (Manner.term qualifier mechanism).letters value = .error fault)
    (x : Expander) (session : Session) (e : Environment) (s : State) :
    exec (if (Term.mk qualifier mechanism value).isExplanation then
        x.expandExplanation session value else x.expandDomainSpec session value) e s =
      (.error (.ofScan value fault),
        { s with trace := s.trace ++ (Expander.rejection (.ofScan value fault)).map .log }) := by
  by_cases hterm : (Term.mk qualifier mechanism value).isExplanation = true
  · have hscan : MacroString.scan Letter.allChars value = .error fault := by
      rw [letters, if_pos (by exact hterm)] at h
      exact h
    rw [if_pos hterm]
    exact Expander.exec_expand_of_fault hscan x session e s
  · have hscan : MacroString.scan Letter.domainSpecChars value = .error fault := by
      rw [letters, if_neg (by exact hterm)] at h
      exact h
    rw [if_neg hterm]
    exact exec_expandDomainSpec_of_fault hscan x session e s

/-- A failure of expansion that scanning finds is the outcome in every manner, and it is logged. -/
theorem exec_expand_of_isExpansion (h : MacroString.scan manner.letters value = .error fault)
    (hkind : (Failure.ofScan value fault).kind.isExpansion = true) (x : Expander)
    (session : Session) (e : Environment) (s : State) :
    exec (manner.expand x session value) e s =
      (.error (.ofScan value fault),
        { s with trace := s.trace ++ (Expander.rejection (.ofScan value fault)).map .log }) := by
  cases manner with
  | free letters => exact Expander.exec_expand_of_fault h x session e s
  | domainSpec => exact exec_expandDomainSpec_of_fault h x session e s
  | explanation => exact Expander.exec_expand_of_fault h x session e s
  | term qualifier mechanism =>
    exact Reporting.exec_guarded_of_isExpansion (exec_unguarded_of_fault h x session e s) hkind

/-- Any other failure that scanning finds is the outcome too.  It is not logged, and a term reports
it. -/
theorem exec_expand_of_not_isExpansion {process : Settings}
    (h : MacroString.scan manner.letters value = .error fault)
    (hkind : (Failure.ofScan value fault).kind.isExpansion = false)
    (he : e.settings = .ok process) (x : Expander) (session : Session) (s : State) :
    exec (manner.expand x session value) e s =
      (.error (.ofScan value fault),
        { s with trace := s.trace ++ manner.reported process (.ofScan value fault) }) := by
  have hlog : Expander.rejection (.ofScan value fault) = [] := by
    simp [Expander.rejection, hkind]
  cases manner with
  | free letters =>
    have := Expander.exec_expand_of_fault h x session e s
    rwa [hlog] at this
  | domainSpec =>
    have := exec_expandDomainSpec_of_fault h x session e s
    rwa [hlog] at this
  | explanation =>
    have := Expander.exec_expand_of_fault h x session e s
    rwa [hlog] at this
  | term qualifier mechanism =>
    have := Reporting.exec_guarded_of_not_isExpansion (exec_unguarded_of_fault h x session e s)
      hkind he
    rwa [hlog, List.map_nil, List.append_nil] at this

theorem grammar_notMem_longCount (digits : Nat) :
    Kind.grammar ∉ (Failure.longCount digits).kind.ancestors := by
  change Kind.grammar ∉ Kind.badValue.ancestors
  decide

/-- In every manner, a string is scanned or rejected for a failure of grammar, which is logged and
not reported, exactly if no count in it is too long; and one is exactly if the failure is that,
which is not logged, and which a term reports. -/
theorem scan_fails_by_grammar_iff (manner : Manner) (value : Text) :
    (((∃ pieces, MacroString.scan manner.letters value = .ok pieces) ∨
        ∃ fault, MacroString.scan manner.letters value = .error fault ∧
          Kind.grammar ∈ (Failure.ofScan value fault).kind.ancestors ∧
          ∀ x session e s, exec (manner.expand x session value) e s =
            (.error (.ofScan value fault),
              { s with trace := s.trace ++
                (Expander.rejection (.ofScan value fault)).map .log })) ↔
      ¬ MacroString.HasLongCount manner.letters value) ∧
    ((∃ digits, MacroString.scan manner.letters value = .error (.longCount digits) ∧
        4300 < digits ∧ (Failure.longCount digits).kind = .badValue ∧
        ∀ x session e s process, e.settings = .ok process →
          exec (manner.expand x session value) e s =
            (.error (.longCount digits),
              { s with trace := s.trace ++ manner.reported process (.longCount digits) })) ↔
      MacroString.HasLongCount manner.letters value) := by
  constructor
  · rw [← MacroString.exists_longCount_iff]
    constructor
    · rintro (⟨pieces, hscan⟩ | ⟨fault, hscan, hkind, -⟩) ⟨digits, hlong⟩
      · rw [hscan] at hlong
        cases hlong
      · obtain rfl : fault = .longCount digits := Except.error.inj (hscan.symm.trans hlong)
        exact grammar_notMem_longCount digits hkind
    · intro hlong
      cases hscan : MacroString.scan manner.letters value with
      | ok pieces => exact .inl ⟨pieces, rfl⟩
      | error fault =>
        cases fault with
        | longCount digits => exact absurd ⟨digits, hscan⟩ hlong
        | defect d position =>
          have hkind : (Failure.ofScan value (.defect d position)).kind.isExpansion = true := by
            rcases Failure.kind_ofScan_defect value d position with h | h | h <;> rw [h] <;> rfl
          exact .inr ⟨_, rfl, Failure.grammar_mem_ancestors_defect value d position,
            exec_expand_of_isExpansion hscan hkind⟩
  · constructor
    · rintro ⟨digits, hscan, -⟩
      exact MacroString.exists_longCount_iff.1 ⟨digits, hscan⟩
    · intro hlong
      obtain ⟨digits, hlimit, hscan⟩ := MacroString.scan_of_hasLongCount hlong
      refine ⟨digits, hscan, hlimit, rfl, ?_⟩
      intro x session e s process he
      exact exec_expand_of_not_isExpansion hscan rfl he x session s

/-- A macro with 4301 digits that is not closed. -/
def longCountValue : Text := ("%\x7bd" : Text) ++ List.replicate 4301 (Character.scalar '1')

/-- Such a macro is no macro string, and it is not rejected for a failure of grammar. -/
theorem scan_longCountValue :
    MacroString.scan Letter.allChars longCountValue = .error (.longCount 4301) ∧
      ¬ ((∃ pieces, MacroString.scan (Manner.free Letter.allChars).letters longCountValue =
          .ok pieces) ∨
        ∃ fault, MacroString.scan (Manner.free Letter.allChars).letters longCountValue =
            .error fault ∧
          Kind.grammar ∈ (Failure.ofScan longCountValue fault).kind.ancestors) := by
  have hdigits : ∀ d ∈ List.replicate 4301 (Character.scalar '1'), d.isDigit = true := by
    intro d hd
    rw [List.eq_of_mem_replicate hd]
    decide
  have hlength : (List.replicate 4301 (Character.scalar '1')).length = 4301 := List.length_replicate
  have hscan : MacroString.scan Letter.allChars longCountValue = .error (.longCount 4301) := by
    have hletter : (Character.scalar 'd').toLower = Letter.currentDomain.char := rfl
    have hletters : Letter.currentDomain.char ∈ Letter.allChars := by decide
    have := MacroString.scan_longCount [] hletter hletters hdigits (by omega) []
    rwa [hlength, List.append_nil] at this
  refine ⟨hscan, ?_⟩
  rintro (⟨pieces, h⟩ | ⟨fault, h, hkind⟩)
  · cases hscan.symm.trans h
  · obtain rfl : fault = .longCount 4301 := Except.error.inj (h.symm.trans hscan)
    exact grammar_notMem_longCount 4301 hkind

end Manner

end SenderPolicy
