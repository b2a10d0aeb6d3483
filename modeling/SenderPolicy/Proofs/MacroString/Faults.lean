import SenderPolicy.Failure
import SenderPolicy.Proofs.MacroString.Concatenation
import SenderPolicy.Proofs.MacroString.Progress

/-! The faults of scanning.  A defect is a failure of grammar.  The one other fault is a truncation
count with more digits than are read as a number, and a text has it exactly if such a count is the
first thing in it that is not well formed. -/

namespace SenderPolicy

/-- A defect is one of the three failures of grammar. -/
theorem Failure.kind_ofScan_defect (value : Text) (d : Defect) (position : Nat) :
    (Failure.ofScan value (.defect d position)).kind = .invalidEscape ∨
      (Failure.ofScan value (.defect d position)).kind = .unterminated ∨
      (Failure.ofScan value (.defect d position)).kind = .malformed := by
  cases d with
  | danglingPercent => exact .inl rfl
  | invalidEscape follower => exact .inl rfl
  | unterminated => exact .inr (.inl rfl)
  | _ => exact .inr (.inr rfl)

theorem Failure.grammar_mem_ancestors_defect (value : Text) (d : Defect) (position : Nat) :
    Kind.grammar ∈ (Failure.ofScan value (.defect d position)).kind.ancestors := by
  rcases Failure.kind_ofScan_defect value d position with h | h | h <;> rw [h] <;> decide

namespace MacroString

variable {letters : List Character} {mode : Mode} {before text : Text} {offset n : Nat}
  {c : Character} {fault : ScanFault}

/-- After well-formed items, a macro has more than 4300 digits after its letter. -/
def HasLongCount (letters : List Character) (value : Text) : Prop :=
  ∃ (items : List (Item letters)) (c : Character) (digits rest : Text),
    value = written items ++ .scalar '%' :: .scalar '{' :: c :: (digits ++ rest) ∧
    (∃ letter : Letter, c.toLower = letter.char ∧ letter.char ∈ letters) ∧
    (∀ d ∈ digits, d.isDigit = true) ∧ 4300 < digits.length

theorem HasLongCount.after (items : List (Item letters)) (h : HasLongCount letters text) :
    HasLongCount letters (written items ++ text) := by
  obtain ⟨others, c, digits, rest, rfl, hcount⟩ := h
  exact ⟨items ++ others, c, digits, rest, by simp [written], hcount⟩

theorem HasLongCount.append (h : HasLongCount letters text) (rest : Text) :
    HasLongCount letters (text ++ rest) := by
  obtain ⟨items, c, digits, more, rfl, hcount⟩ := h
  exact ⟨items, c, digits, more ++ rest, by simp, hcount⟩

/-! ### Where the fault comes from -/

/-- What makes the automaton refuse the character `c`. -/
inductive Refusal (letters : List Character) (offset : Nat) (c : Character) :
    Mode → ScanFault → Prop
  | escape : Refusal letters offset c .percent (.defect (.invalidEscape c) (offset - 1))
  | opening {d : Defect} :
      (ExpansionCause.defect d).kind = .malformed → d ≠ .zeroCount →
      Refusal letters offset c .opened (.defect d offset)
  | count {letter : Letter} {upper : Bool} {value length : Nat} {fault : ScanFault} :
      countOf value length offset = .error fault → ¬c.isDigit = true →
      Refusal letters offset c (.counting letter upper value length) fault
  | afterCount {letter : Letter} {upper : Bool} {value length : Nat} {truncation : Option Nat} :
      countOf value length offset = .ok truncation →
      Refusal letters offset c (.counting letter upper value length)
        (.defect (.unexpected c) offset)
  | body {letter : Letter} {upper : Bool} {truncation : Option Nat} {reverse : Bool} {run : Text} :
      Refusal letters offset c (.delimiting letter upper truncation reverse run)
        (.defect (.unexpected c) offset)

/-- What the automaton lacks where the text ends. -/
inductive Shortfall (offset : Nat) : Mode → ScanFault → Prop
  | escape : Shortfall offset .percent (.defect .danglingPercent (offset - 1))
  | opening : Shortfall offset .opened (.defect .unterminated offset)
  | count {letter : Letter} {upper : Bool} {value length : Nat} {fault : ScanFault} :
      countOf value length offset = .error fault →
      Shortfall offset (.counting letter upper value length) fault
  | afterCount {letter : Letter} {upper : Bool} {value length : Nat} {truncation : Option Nat} :
      countOf value length offset = .ok truncation →
      Shortfall offset (.counting letter upper value length) (.defect .unterminated offset)
  | body {letter : Letter} {upper : Bool} {truncation : Option Nat} {reverse : Bool} {run : Text} :
      Shortfall offset (.delimiting letter upper truncation reverse run)
        (.defect .unterminated offset)

theorem countOf_eq_longCount {value length : Nat}
    (h : countOf value length offset = .error (.longCount n)) : 4300 < length := by
  unfold countOf at h
  split at h
  · cases h
  · split at h
    · next hlimit => exact hlimit
    · split at h <;> cases h

theorem bodyStep_eq_error {letter : Letter} {upper : Bool} {truncation : Option Nat}
    {reverse : Bool} {run : Text} (h : bodyStep letter upper truncation reverse run offset c =
      .error fault) : fault = .defect (.unexpected c) offset := by
  unfold bodyStep at h
  split at h
  · cases h
  · split at h
    · cases h
    · split at h
      · cases h
      · exact (Except.error.inj h).symm

theorem refusal_of_step (h : step letters mode offset c = .error fault) :
    Refusal letters offset c mode fault := by
  cases mode with
  | outside => cases h
  | percent =>
    simp only [step] at h
    split at h
    · cases h
    · split at h <;> cases h
      exact .escape
  | opened =>
    simp only [step] at h
    split at h
    · cases h
      exact .opening rfl (by simp)
    · split at h
      · cases h
        exact .opening rfl (by simp)
      · split at h <;> cases h
        exact .opening rfl (by simp)
  | counting letter upper value length =>
    by_cases hdigit : c.isDigit = true
    · rw [step_counting_digit hdigit] at h
      cases h
    · cases hcount : countOf value length offset with
      | error other =>
        rw [step_counting_error hdigit hcount] at h
        obtain rfl : other = fault := Except.error.inj h
        exact .count hcount hdigit
      | ok truncation =>
        rw [step_counting_ok hdigit hcount] at h
        obtain rfl := bodyStep_eq_error h
        exact .afterCount hcount
  | delimiting letter upper truncation reverse run =>
    obtain rfl := bodyStep_eq_error h
    exact .body

theorem shortfall_of_finish (h : finish mode offset = .error fault) :
    Shortfall offset mode fault := by
  cases mode with
  | outside => cases h
  | percent =>
    cases h
    exact .escape
  | opened =>
    cases h
    exact .opening
  | counting letter upper value length =>
    cases hcount : countOf value length offset with
    | error other =>
      simp only [finish, hcount] at h
      obtain rfl : other = fault := Except.error.inj h
      exact .count hcount
    | ok truncation =>
      simp only [finish, hcount] at h
      cases h
      exact .afterCount hcount
  | delimiting letter upper truncation reverse run =>
    cases h
    exact .body

/-- Only a run of digits is too long. -/
theorem Reading.hasLongCount {letter : Letter} {upper : Bool} {value length : Nat}
    (h : Reading letters (.counting letter upper value length) before)
    (hcount : countOf value length offset = .error (.longCount n)) (rest : Text) :
    HasLongCount letters (before ++ rest) := by
  cases h with
  | @counting _ written digits ha hw hl hd =>
    exact ⟨[], written, digits, rest, by simp, ⟨letter, hw, hl⟩, hd, countOf_eq_longCount hcount⟩

theorem hasLongCount_of_scan {value : Text} (h : scan letters value = .error (.longCount n)) :
    HasLongCount letters value := by
  obtain ⟨mode, front, rest, rfl, hreached, hhalts⟩ := exists_halts_of_scan h
  obtain ⟨items, read, rfl, hreading⟩ := hreached.exists_items
  rw [List.append_assoc]
  cases hhalts with
  | finish hf =>
    cases shortfall_of_finish hf with
    | count hcount => exact (hreading.hasLongCount hcount []).after items
  | step hs =>
    cases refusal_of_step hs with
    | count hcount => exact (hreading.hasLongCount hcount _).after items

/-! ### What comes of a long count -/

theorem countOf_of_lt {length : Nat} (h : 4300 < length) (value offset : Nat) :
    countOf value length offset = .error (.longCount length) := by
  have hne : length ≠ 0 := by omega
  have hlimit : countDigitLimit < length := h
  simp [countOf, hne, hlimit]

/-- The digits of a count are counted to their end before anything else is looked at. -/
theorem yields_longCount {letter : Letter} {upper : Bool} {value length : Nat}
    (h : 4300 < length) (offset : Nat) (rest : Text) :
    yields letters (.counting letter upper value length) offset rest =
      .error (.longCount (length + (rest.takeWhile Character.isDigit).length)) := by
  induction rest generalizing value length offset with
  | nil =>
    simp only [yields, finish, countOf_of_lt h]
    rfl
  | cons c rest ih =>
    rw [List.takeWhile_cons]
    by_cases hc : c.isDigit = true
    · have hlength : length + 1 + (rest.takeWhile Character.isDigit).length =
          length + ((rest.takeWhile Character.isDigit).length + 1) := by omega
      rw [yields_of_silent_step (step_counting_digit hc), ih (by omega), if_pos hc,
        List.length_cons, hlength]
    · simp only [yields, step_counting_error hc (countOf_of_lt h value offset), hc]
      rfl

theorem scan_longCount (items : List (Item letters)) {letter : Letter} {c : Character}
    {digits : Text}
    (hc : c.toLower = letter.char) (hl : letter.char ∈ letters)
    (hdigits : ∀ d ∈ digits, d.isDigit = true) (hlimit : 4300 < digits.length) (rest : Text) :
    scan letters (written items ++ .scalar '%' :: .scalar '{' :: c :: (digits ++ rest)) =
      .error (.longCount (digits.length + (rest.takeWhile Character.isDigit).length)) := by
  rw [scan, yields_written_append, yields_of_silent_step rfl, yields_of_silent_step rfl,
    yields_of_silent_step (step_opened hc hl _), yields_digits _ _ _ hdigits, List.nil_append,
    yields_longCount hlimit]
  rfl

theorem scan_of_hasLongCount {value : Text} (h : HasLongCount letters value) :
    ∃ digits, 4300 < digits ∧ scan letters value = .error (.longCount digits) := by
  obtain ⟨items, c, digits, rest, rfl, ⟨letter, hc, hl⟩, hdigits, hlimit⟩ := h
  exact ⟨_, by omega, scan_longCount items hc hl hdigits hlimit rest⟩

theorem not_hasLongCount_of_scan {value : Text} {d : Defect} {position : Nat}
    (h : scan letters value = .error (.defect d position)) : ¬HasLongCount letters value := by
  intro hlong
  obtain ⟨digits, -, hscan⟩ := scan_of_hasLongCount hlong
  rw [h] at hscan
  cases hscan

/-- A count that is too long is the one fault that is not a failure of grammar. -/
theorem exists_longCount_iff {value : Text} :
    (∃ digits, scan letters value = .error (.longCount digits)) ↔ HasLongCount letters value := by
  constructor
  · rintro ⟨digits, h⟩
    exact hasLongCount_of_scan h
  · intro h
    obtain ⟨digits, -, hscan⟩ := scan_of_hasLongCount h
    exact ⟨digits, hscan⟩

end MacroString

end SenderPolicy
