import Mathlib.Data.List.Induction
import Mathlib.Data.Nat.SuccPred
import SenderPolicy.Proofs.MacroString.Faults

/-! Where scanning fails.  A text is viable if some text that begins with it is a macro string.
The offset of a fault is told by the longest viable front of the text, except for a count of zeros,
which is blamed on its first digit although it may still become a number. -/

namespace SenderPolicy.MacroString

variable {letters : List Character} {mode : Mode} {letter : Letter} {upper : Bool}
  {front text : Text} {c : Character} {d : Defect} {fault : ScanFault} {offset position : Nat}

/-- Some macro string begins with `text`. -/
def Viable (letters : List Character) (text : Text) : Prop :=
  ∃ rest pieces, scan letters (text ++ rest) = .ok pieces

/-- The lengths of the fronts of a text that are viable. -/
def viableLengths (letters : List Character) (value : Text) : Set Nat :=
  {n | n ≤ value.length ∧ Viable letters (value.take n)}

/-- After well-formed items, the digits after the letter of a macro are zeros only.  The first of
them is at `position`, and `rest` follows the last one. -/
def HasZeroCount (letters : List Character) (value : Text) (position : Nat) (rest : Text) : Prop :=
  ∃ (items : List (Item letters)) (c : Character) (zeros : Text),
    value = written items ++ .scalar '%' :: .scalar '{' :: c :: (zeros ++ rest) ∧
    position = (written items).length + 3 ∧
    (∃ letter : Letter, c.toLower = letter.char ∧ letter.char ∈ letters) ∧
    zeros ≠ [] ∧ (∀ z ∈ zeros, z = '0') ∧ ∀ z ∈ rest.head?, z.isDigit = false

/-! ### Viable fronts -/

theorem viable_written (items : List (Item letters)) : Viable letters (written items) :=
  ⟨[], _, by rw [List.append_nil]; exact scan_written items⟩

theorem Viable.of_append {rest : Text} (h : Viable letters (front ++ rest)) :
    Viable letters front := by
  obtain ⟨more, pieces, hscan⟩ := h
  rw [List.append_assoc] at hscan
  exact ⟨rest ++ more, pieces, hscan⟩

theorem not_viable_append (h : ¬Viable letters (front ++ [c])) (rest : Text) :
    ¬Viable letters (front ++ c :: rest) := by
  intro hviable
  rw [List.append_cons] at hviable
  exact h hviable.of_append

theorem viable_percent (items : List (Item letters)) : Viable letters
    (written items ++ [.scalar '%']) := by
  have h := viable_written (items ++ [.escape .percent])
  have htwice : written (items ++ [.escape .percent]) =
      written items ++ [.scalar '%'] ++ [.scalar '%'] := by
    simp [written, Item.text, Escape.char]
  rw [htwice] at h
  exact h.of_append

theorem exists_isGreatest_viableLengths (letters : List Character) (value : Text) :
    ∃ m, IsGreatest (viableLengths letters value) m := by
  apply BddAbove.exists_isGreatest_of_nonempty
  · exact ⟨value.length, fun n hn => hn.1⟩
  · exact ⟨0, Nat.zero_le _, viable_written []⟩

theorem isGreatest_of_viable (h : Viable letters text) :
    IsGreatest (viableLengths letters text) text.length := by
  constructor
  · exact ⟨Nat.le_refl _, by rwa [List.take_length]⟩
  · intro n hn
    exact hn.1

/-- A front is the longest viable one if the next character makes it one that is not. -/
theorem isGreatest_of_not_viable (hfront : Viable letters front)
    (hnext : ¬Viable letters (front ++ [c])) (rest : Text) :
    IsGreatest (viableLengths letters (front ++ c :: rest)) front.length := by
  constructor
  · refine ⟨by simp, ?_⟩
    rwa [List.take_left]
  · intro n hn
    by_contra hlonger
    obtain ⟨k, rfl⟩ : ∃ k, n = (front ++ [c]).length + k := by
      refine ⟨n - (front.length + 1), ?_⟩
      simp only [List.length_append, List.length_singleton]
      omega
    have hsplit : front ++ c :: rest = front ++ [c] ++ rest := List.append_cons front c rest
    have hviable := hn.2
    rw [hsplit, List.take_length_add_append] at hviable
    exact hnext hviable.of_append

/-! ### What may follow where the automaton stands -/

theorem Reached.viable {rest : Text} {pieces : List Piece} (h : Reached letters mode front)
    (hy : yields letters mode front.length rest = .ok pieces) : Viable letters front := by
  obtain ⟨before, hbefore⟩ := h.exists_yields
  refine ⟨rest, fuse (before ++ pieces), ?_⟩
  rw [scan, hbefore, hy]
  rfl

theorem Reached.not_viable (h : Reached letters mode front)
    (hs : MacroString.step letters mode front.length c = .error fault) :
    ¬Viable letters (front ++ [c]) := by
  rintro ⟨rest, pieces, hscan⟩
  rw [List.append_assoc, List.singleton_append, h.scan_of_halts (.step hs)] at hscan
  cases hscan

theorem Reached.viable_opened (h : Reached letters .opened front)
    (hletter : ∃ letter : Letter, letter.char ∈ letters) : Viable letters front := by
  obtain ⟨letter, hl⟩ := hletter
  have hlower : letter.char.toLower = letter.char := by cases letter <;> decide
  have hy : yields letters .opened front.length [letter.char, '}'] =
      .ok [.token (tokenOf letter letter.char.isUpper none false [])] := by
    rw [yields_of_silent_step (step_opened hlower hl _)]
    rfl
  exact h.viable hy

theorem Reached.viable_delimiting {truncation : Option Nat} {reverse : Bool} {run : Text}
    (h : Reached letters (.delimiting letter upper truncation reverse run) front) :
    Viable letters front := by
  have hy : yields letters (.delimiting letter upper truncation reverse run) front.length ['}'] =
      .ok [.token (tokenOf letter upper truncation reverse run)] := rfl
  exact h.viable hy

/-- A count that can be read may end. -/
theorem Reached.viable_of_countOf {value length : Nat} {truncation : Option Nat}
    (h : Reached letters (.counting letter upper value length) front)
    (hc : countOf value length front.length = .ok truncation) : Viable letters front := by
  have hs : MacroString.step letters (.counting letter upper value length) front.length '}' =
      .ok (some (.token (tokenOf letter upper truncation false [])), .outside) :=
    step_counting_ok (by decide) hc
  have hy : yields letters (.counting letter upper value length) front.length ['}'] =
      .ok [.token (tokenOf letter upper truncation false [])] := by
    rw [yields_of_step hs]
    rfl
  exact h.viable hy

/-- With one more digit, every count is one of a positive number. -/
theorem Reached.viable_of_lt {value length : Nat}
    (h : Reached letters (.counting letter upper value length) front) (hlength : length < 4300) :
    Viable letters front := by
  have hone : Reached letters (.counting letter upper (value * 10 + 1) (length + 1))
      (front ++ [.scalar '1']) := h.step rfl
  have hcount : countOf (value * 10 + 1) (length + 1) (front ++ [Character.scalar '1']).length =
      .ok (some (value * 10 + 1)) := by
    have hlimit : ¬countDigitLimit < length + 1 := by
      show ¬4300 < length + 1
      omega
    simp [countOf, hlimit]
  exact (hone.viable_of_countOf hcount).of_append

theorem Reached.exists_items_of_percent (h : Reached letters .percent front) :
    ∃ items : List (Item letters), front = written items ++ [.scalar '%'] := by
  obtain ⟨items, read, rfl, hreading⟩ := h.exists_items
  cases hreading
  exact ⟨items, rfl⟩

/-! ### Counts of zeros -/

theorem countOf_eq_defect {value length : Nat}
    (h : countOf value length offset = .error (.defect d position)) :
    length ≠ 0 ∧ value = 0 ∧ d = .zeroCount ∧ position = offset - length := by
  unfold countOf at h
  split at h
  · cases h
  · next hlength =>
    split at h
    · cases h
    · split at h
      · next hvalue =>
        cases h
        exact ⟨hlength, hvalue, rfl, rfl⟩
      · cases h

theorem eq_zero_of_valueOf {digits : Text} (hdigits : ∀ c ∈ digits, c.isDigit = true)
    (h : Numeral.valueOf digits = 0) : ∀ c ∈ digits, c = '0' := by
  induction digits using List.reverseRecOn with
  | nil => simp
  | append_singleton digits last ih =>
    rw [valueOf_append_digit] at h
    intro c hc
    rcases List.mem_append.1 hc with hc | hc
    · exact ih (fun c hc => hdigits c (List.mem_append_left _ hc)) (by omega) c hc
    · obtain rfl := List.mem_singleton.1 hc
      have hdigit := hdigits c (by simp)
      have hrange : '0'.toNat ≤ c.toNat := (Character.isDigit_iff.1 hdigit).1
      have heq : c.toNat = '0'.toNat := by omega
      exact Character.toNat_inj.1 heq

/-! ### Where the faults are -/

/-- The defect of a text that is not scanned, and its offset, by what the text is made of. -/
inductive Located (letters : List Character) : Text → Defect → Nat → Prop
  | unterminated {value : Text} :
      Viable letters value → Located letters value .unterminated value.length
  | danglingPercent (items : List (Item letters)) :
      Located letters (written items ++ [.scalar '%']) .danglingPercent (written items).length
  | invalidEscape (items : List (Item letters)) {c : Character} (rest : Text) :
      ¬Viable letters (written items ++ [.scalar '%'] ++ [c]) →
      Located letters (written items ++ [.scalar '%'] ++ c :: rest) (.invalidEscape c)
        (written items).length
  | malformed {front : Text} {c : Character} {d : Defect} (rest : Text) :
      (ExpansionCause.defect d).kind = .malformed → d ≠ .zeroCount → Viable letters front →
      ¬Viable letters (front ++ [c]) → Located letters (front ++ c :: rest) d front.length
  | zeroCount {value : Text} {position : Nat} {rest : Text} :
      HasZeroCount letters value position rest → (rest ≠ [] → ¬Viable letters value) →
      Located letters value .zeroCount position

/-- A count that is refused is one of zeros only. -/
theorem Reached.located_of_countOf {value length : Nat} {rest : Text}
    (h : Reached letters (.counting letter upper value length) front)
    (hcount : countOf value length front.length = .error (.defect d position))
    (hrest : ∀ c ∈ rest.head?, c.isDigit = false)
    (hviable : rest ≠ [] → ¬Viable letters (front ++ rest)) :
    Located letters (front ++ rest) d position := by
  obtain ⟨items, read, rfl, hreading⟩ := h.exists_items
  obtain ⟨hlength, hvalue, rfl, rfl⟩ := countOf_eq_defect hcount
  cases hreading with
  | @counting _ written digits ha hw hl hdigits =>
    refine .zeroCount ⟨items, written, digits, by simp, ?_, ⟨letter, hw, hl⟩, ?_,
      eq_zero_of_valueOf hdigits hvalue, hrest⟩ hviable
    · simp only [List.length_append, List.length_cons]
      omega
    · rintro rfl
      exact hlength rfl

/-- At its end, a text lacks the rest of a macro or of an escape, or its count is one of zeros. -/
theorem Reached.located_of_finish (h : Reached letters mode front)
    (hf : finish mode front.length = .error (.defect d position))
    (hletter : ∃ letter : Letter, letter.char ∈ letters) : Located letters front d position := by
  cases shortfall_of_finish hf with
  | escape =>
    obtain ⟨items, rfl⟩ := h.exists_items_of_percent
    rw [List.length_append, List.length_singleton, Nat.add_sub_cancel]
    exact .danglingPercent items
  | opening => exact .unterminated (h.viable_opened hletter)
  | count hcount =>
    have hend : ∀ c ∈ ([] : Text).head?, c.isDigit = false := by simp
    have hlocated := h.located_of_countOf hcount hend fun hne => absurd rfl hne
    rwa [List.append_nil] at hlocated
  | afterCount hcount => exact .unterminated (h.viable_of_countOf hcount)
  | body => exact .unterminated h.viable_delimiting

/-- At a character that is refused, the text before it is viable, unless its count is one of zeros,
and with the character it is not. -/
theorem Reached.located_of_step (h : Reached letters mode front)
    (hs : MacroString.step letters mode front.length c = .error (.defect d position))
    (hletter : ∃ letter : Letter, letter.char ∈ letters) (rest : Text) :
    Located letters (front ++ c :: rest) d position := by
  have hnext := h.not_viable hs
  cases refusal_of_step hs with
  | escape =>
    obtain ⟨items, rfl⟩ := h.exists_items_of_percent
    rw [List.length_append, List.length_singleton, Nat.add_sub_cancel]
    exact .invalidEscape items rest hnext
  | opening hkind hzero => exact .malformed rest hkind hzero (h.viable_opened hletter) hnext
  | count hcount hdigit =>
    have hend : ∀ z ∈ (c :: rest).head?, z.isDigit = false := by simpa using hdigit
    exact h.located_of_countOf hcount hend fun _ => not_viable_append hnext rest
  | afterCount hcount => exact .malformed rest rfl (by simp) (h.viable_of_countOf hcount) hnext
  | body => exact .malformed rest rfl (by simp) h.viable_delimiting hnext

theorem located_of_scan {value : Text} (hletter : ∃ letter : Letter, letter.char ∈ letters)
    (h : scan letters value = .error (.defect d position)) : Located letters value d position := by
  obtain ⟨mode, front, rest, rfl, hreached, hhalts⟩ := exists_halts_of_scan h
  cases hhalts with
  | finish hf =>
    rw [List.append_nil]
    exact hreached.located_of_finish hf hletter
  | step hs => exact hreached.located_of_step hs hletter _

/-- A text without a count that is too long fails by a defect.  Where the macro does not end, that
is at the end of the text, which is viable.  A percent sign that begins no escape is blamed itself,
and the text before it is scanned.  Other defects are blamed on the first character that no macro
string has there, but zeros as a count on the first of them.  If the text is viable, then it ends in
a macro or in a percent sign. -/
theorem scan_fault_exact {letters : List Character}
    (hletter : ∃ letter : Letter, letter.char ∈ letters)
    {value : Text} {fault : ScanFault} (hscan : scan letters value = .error fault)
    (hcount : ¬HasLongCount letters value) :
    ∃ (d : Defect) (position m : Nat),
      Failure.ofScan value fault =
        .expansion { cause := .defect d, value := some value, position := position } ∧
      IsGreatest (viableLengths letters value) m ∧
      ((ExpansionCause.defect d).kind = .unterminated →
        position = value.length ∧ m = value.length) ∧
      ((ExpansionCause.defect d).kind = .invalidEscape →
        value[position]? = some (.scalar '%') ∧
          (∃ pieces, scan letters (value.take position) = .ok pieces) ∧
          m = position + 1) ∧
      ((ExpansionCause.defect d).kind = .malformed → d ≠ .zeroCount →
        position = m ∧ m < value.length) ∧
      (d = .zeroCount → ∃ rest, HasZeroCount letters value position rest) ∧
      (Viable letters value →
        (ExpansionCause.defect d).kind = .unterminated ∨ d = .danglingPercent ∨
          d = .zeroCount ∧ HasZeroCount letters value position []) := by
  cases fault with
  | longCount digits => exact absurd (hasLongCount_of_scan hscan) hcount
  | defect d position =>
    refine ⟨d, position, ?_⟩
    cases located_of_scan hletter hscan with
    | unterminated hviable =>
      refine ⟨value.length, rfl, isGreatest_of_viable hviable, fun _ => ⟨rfl, rfl⟩, ?_, ?_, ?_, ?_⟩
      · nofun
      · nofun
      · nofun
      · exact fun _ => .inl rfl
    | danglingPercent items =>
      have hgreatest := isGreatest_of_viable (viable_percent items)
      refine ⟨_, rfl, hgreatest, ?_, ?_, ?_, ?_, ?_⟩
      · nofun
      · intro _
        refine ⟨by simp, ⟨fuse (items.map Item.piece), ?_⟩, by simp⟩
        rw [List.take_left]
        exact scan_written items
      · nofun
      · nofun
      · exact fun _ => .inr (.inl rfl)
    | invalidEscape items rest hnext =>
      have hgreatest := isGreatest_of_not_viable (viable_percent items) hnext rest
      refine ⟨_, rfl, hgreatest, ?_, ?_, ?_, ?_, ?_⟩
      · nofun
      · intro _
        refine ⟨by simp, ⟨fuse (items.map Item.piece), ?_⟩, by simp⟩
        rw [List.append_assoc, List.take_left]
        exact scan_written items
      · nofun
      · nofun
      · exact fun hviable => absurd hviable (not_viable_append hnext rest)
    | malformed rest hkind hzero hfront hnext =>
      refine ⟨_, rfl, isGreatest_of_not_viable hfront hnext rest, ?_, ?_, ?_, ?_, ?_⟩
      · rw [hkind]
        nofun
      · rw [hkind]
        nofun
      · exact fun _ _ => ⟨rfl, by simp⟩
      · exact fun h => absurd h hzero
      · exact fun hviable => absurd hviable (not_viable_append hnext rest)
    | @zeroCount _ _ rest hzero hviable =>
      obtain ⟨m, hm⟩ := exists_isGreatest_viableLengths letters value
      refine ⟨m, rfl, hm, ?_, ?_, ?_, fun _ => ⟨rest, hzero⟩, ?_⟩
      · nofun
      · nofun
      · exact fun _ hne => absurd rfl hne
      · intro h
        have hrest : rest = [] := by
          by_contra hne
          exact hviable hne h
        rw [hrest] at hzero
        exact .inr (.inr ⟨rfl, hzero⟩)

/-- The reversal mark of `%{d3.r}` stands after a delimiter.  The text is viable up to there. -/
theorem scan_fault_exact_late_mark :
    scan ['d'] ("%\x7bd3.r\x7d" : Text) = .error (.defect (.unexpected 'r') 5) ∧
      ¬HasLongCount ['d'] ("%\x7bd3.r\x7d" : Text) ∧
      IsGreatest (viableLengths ['d'] ("%\x7bd3.r\x7d" : Text)) 5 := by
  have hletter : ∃ letter : Letter, letter.char ∈ [Character.scalar 'd'] :=
    ⟨.currentDomain, by decide⟩
  have hscan : scan ['d'] ("%\x7bd3.r\x7d" : Text) = .error (.defect (.unexpected 'r') 5) := by
    decide
  have hcount : ¬HasLongCount ['d'] ("%\x7bd3.r\x7d" : Text) := not_hasLongCount_of_scan hscan
  obtain ⟨d, position, m, hfailure, hm, -, -, hmalformed, -⟩ :=
    scan_fault_exact hletter hscan hcount
  obtain ⟨rfl, hposition⟩ : d = .unexpected 'r' ∧ (position : Int) = 5 := by
    simpa [Failure.ofScan, eq_comm] using hfailure
  obtain ⟨rfl, -⟩ := hmalformed rfl (by simp)
  have hfive : position = 5 := by omega
  rw [hfive] at hm
  exact ⟨hscan, hcount, hm⟩

end SenderPolicy.MacroString
