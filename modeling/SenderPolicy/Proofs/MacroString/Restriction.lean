import SenderPolicy.Proofs.MacroString.Continuation

/-! Scanning with fewer letters.  The letters that are allowed make a difference at the letter of a
macro and nowhere else.  So a text is scanned with some letters exactly if it is scanned with all of
them and uses no other one, and then to the same pieces; and where it fails, either it fails as it
does with all letters, or the first other letter is blamed and stands before that fault. -/

namespace SenderPolicy.MacroString

variable {letters others : List Character} {mode next : Mode} {letter : Letter} {front value : Text}
  {c : Character} {d : Defect} {fault : ScanFault} {offset position : Nat} {yielded : Yield}

/-- After well-formed items, the letter of a macro is `c`, at `position`, which is a macro letter
but not one of `letters`. -/
def HasOtherLetter (letters : List Character) (value : Text) (c : Character) (position : Nat) :
    Prop :=
  ∃ (items : List (Item letters)) (rest : Text),
    value = written items ++ .scalar '%' :: .scalar '{' :: c :: rest ∧
    position = (written items).length + 2 ∧
    ∃ letter : Letter, c.toLower = letter.char ∧ letter.char ∉ letters

theorem HasOtherLetter.append (h : HasOtherLetter letters value c position) (rest : Text) :
    HasOtherLetter letters (value ++ rest) c position := by
  obtain ⟨items, more, rfl, hother⟩ := h
  exact ⟨items, more ++ rest, by simp, hother⟩

theorem HasOtherLetter.after (items : List (Item letters))
    (h : HasOtherLetter letters value c position) :
    HasOtherLetter letters (written items ++ value) c ((written items).length + position) := by
  obtain ⟨more, rest, rfl, rfl, hother⟩ := h
  refine ⟨items ++ more, rest, by simp [written], ?_, hother⟩
  simp only [written, List.flatMap_append, List.length_append]
  omega

/-! ### Items and their letters -/

/-- Every macro among some items has its letter in `others`. -/
def LettersIn (others : List Character) (items : List (Item letters)) : Prop :=
  ∀ x : Expression letters, .expression x ∈ items → x.letter.char ∈ others

theorem lettersIn_allChars (items : List (Item letters)) : LettersIn Letter.allChars items :=
  fun x _ => x.letter.char_mem_allChars

/-- The same items, where the characters of `others` are allowed. -/
theorem LettersIn.exists_items {items : List (Item letters)} (h : LettersIn others items) :
    ∃ same : List (Item others),
      written same = written items ∧ same.map Item.piece = items.map Item.piece := by
  induction items with
  | nil => exact ⟨[], rfl, rfl⟩
  | cons item items ih =>
    obtain ⟨same, hwritten, hpieces⟩ := ih fun x hx => h x (List.mem_cons_of_mem _ hx)
    have hcons (first : Item others) (htext : first.text = item.text)
        (hpiece : first.piece = item.piece) : ∃ same : List (Item others),
          written same = written (item :: items) ∧
            same.map Item.piece = (item :: items).map Item.piece :=
      ⟨first :: same, by rw [written_cons, written_cons, htext, hwritten],
        by rw [List.map_cons, List.map_cons, hpiece, hpieces]⟩
    cases item with
    | plain c hc => exact hcons (.plain c hc) rfl rfl
    | escape e => exact hcons (.escape e) rfl rfl
    | expression x =>
      exact hcons (.expression { x with letter_mem := h x List.mem_cons_self }) rfl rfl

theorem lettersIn_iff {items : List (Item letters)} :
    LettersIn others items ↔ ∀ token : Token, .token token ∈ fuse (items.map Item.piece) →
      token.letter.char ∈ others := by
  constructor
  · intro h token htoken
    obtain ⟨x, hx, rfl⟩ := token_mem_pieces_iff.1 htoken
    exact h x hx
  · intro h x hx
    exact h x.token (token_mem_pieces_iff.2 ⟨x, hx, rfl⟩)

/-! ### Steps -/

theorem step_opened_other (hc : c.toLower = letter.char) (hl : letter.char ∉ letters)
    (offset : Nat) :
    step letters .opened offset c = .error (.defect (.explanationLetter c) offset) := by
  have hbrace : c ≠ '}' := by
    intro he
    have halpha := isAlpha_of_toLower hc
    rw [he] at halpha
    exact absurd halpha (by decide)
  simp [step, hbrace, hc, Letter.ofChar?_char, hl]

theorem step_opened_allChars (hc : c.toLower = letter.char) (offset : Nat) :
    step Letter.allChars .opened offset c = .ok (none, .counting letter c.isUpper 0 0) :=
  step_opened hc letter.char_mem_allChars offset

/-- The letters that are allowed are looked at after an opening brace only. -/
theorem step_eq_or_other (letters : List Character) (mode : Mode) (offset : Nat) (c : Character) :
    step letters mode offset c = step Letter.allChars mode offset c ∨
      mode = .opened ∧ ∃ letter : Letter, c.toLower = letter.char ∧ letter.char ∉ letters := by
  cases mode with
  | opened =>
    by_cases hletter : ∃ letter : Letter, c.toLower = letter.char
    · obtain ⟨letter, hc⟩ := hletter
      by_cases hl : letter.char ∈ letters
      · left
        rw [step_opened hc hl, step_opened hc letter.char_mem_allChars]
      · exact .inr ⟨rfl, letter, hc, hl⟩
    · have hnone : Letter.ofChar? c.toLower = none := by
        rw [Option.eq_none_iff_forall_ne_some]
        intro letter h
        exact hletter ⟨letter, (Letter.char_of_ofChar? h).symm⟩
      left
      simp [step, hnone]
  | _ => exact .inl rfl

theorem scan_of_hasOtherLetter (h : HasOtherLetter letters value c position) :
    scan letters value = .error (.defect (.explanationLetter c) position) := by
  obtain ⟨items, rest, rfl, rfl, letter, hc, hl⟩ := h
  rw [scan, yields_written_append, yields_of_silent_step rfl, yields_of_silent_step rfl, yields,
    step_opened_other hc hl, Nat.zero_add]
  rfl

/-! ### Faults -/

/-- How many of the characters read last a fault may still be blamed on. -/
def Mode.pending : Mode → Nat
  | .percent => 1
  | .counting _ _ _ length => length
  | _ => 0

theorem pending_of_bodyStep {upper : Bool} {truncation : Option Nat} {reverse : Bool} {run : Text}
    (h : bodyStep letter upper truncation reverse run offset c = .ok (yielded, next)) :
    next.pending = 0 := by
  unfold bodyStep at h
  split at h
  · cases h
    rfl
  · split at h
    · cases h
      rfl
    · split at h <;> cases h
      rfl

/-- Every character makes them one more at most. -/
theorem pending_le_of_step (h : step letters mode offset c = .ok (yielded, next)) :
    next.pending ≤ mode.pending + 1 := by
  cases mode with
  | outside =>
    simp only [step] at h
    split at h <;> cases h <;> simp [Mode.pending]
  | percent =>
    simp only [step] at h
    split at h
    · cases h
      simp [Mode.pending]
    · split at h <;> cases h
      simp [Mode.pending]
  | opened =>
    simp only [step] at h
    split at h
    · cases h
    · split at h
      · cases h
      · split at h <;> cases h
        simp [Mode.pending]
  | counting letter upper value length =>
    by_cases hdigit : c.isDigit = true
    · rw [step_counting_digit hdigit] at h
      cases h
      exact Nat.le_refl _
    · cases hcount : countOf value length offset with
      | error other =>
        rw [step_counting_error hdigit hcount] at h
        cases h
      | ok truncation =>
        rw [step_counting_ok hdigit hcount] at h
        rw [pending_of_bodyStep h]
        exact Nat.zero_le _
  | delimiting letter upper truncation reverse run =>
    rw [pending_of_bodyStep h]
    exact Nat.zero_le _

/-- A fault is blamed on no character before those. -/
theorem Halts.le_position {text : Text} (h : Halts letters mode offset (.defect d position) text) :
    offset ≤ position + mode.pending := by
  have hcounted {value length : Nat}
      (hcount : countOf value length offset = .error (.defect d position)) :
      offset ≤ position + length := by
    obtain ⟨-, -, -, rfl⟩ := countOf_eq_defect hcount
    omega
  cases h with
  | finish hf =>
    cases shortfall_of_finish hf with
    | escape => simp only [Mode.pending]; omega
    | count hcount => exact hcounted hcount
    | opening => exact Nat.le_add_right _ _
    | afterCount => exact Nat.le_add_right _ _
    | body => exact Nat.le_add_right _ _
  | step hs =>
    cases refusal_of_step hs with
    | escape => simp only [Mode.pending]; omega
    | count hcount => exact hcounted hcount
    | opening => exact Nat.le_add_right _ _
    | afterCount => exact Nat.le_add_right _ _
    | body => exact Nat.le_add_right _ _

/-- A fault is blamed on no character that has not been looked at. -/
theorem Halts.position_le {text : Text} (h : Halts letters mode offset (.defect d position) text) :
    position ≤ offset := by
  have hcounted {value length : Nat}
      (hcount : countOf value length offset = .error (.defect d position)) : position ≤ offset := by
    obtain ⟨-, -, -, rfl⟩ := countOf_eq_defect hcount
    omega
  cases h with
  | finish hf =>
    cases shortfall_of_finish hf with
    | escape => omega
    | count hcount => exact hcounted hcount
    | opening => exact Nat.le_refl _
    | afterCount => exact Nat.le_refl _
    | body => exact Nat.le_refl _
  | step hs =>
    cases refusal_of_step hs with
    | escape => omega
    | count hcount => exact hcounted hcount
    | opening => exact Nat.le_refl _
    | afterCount => exact Nat.le_refl _
    | body => exact Nat.le_refl _

theorem position_le_of_scan (h : scan letters value = .error (.defect d position)) :
    position ≤ value.length := by
  obtain ⟨mode, front, rest, rfl, -, hhalts⟩ := exists_halts_of_scan h
  rw [List.length_append]
  exact Nat.le_trans hhalts.position_le (Nat.le_add_right _ _)

/-- The run lemma: where the automaton gets with all letters it gets with some of them too, unless
it has come by another letter before the characters that a fault may still be blamed on. -/
theorem Reached.restrict (letters : List Character) (h : Reached Letter.allChars mode front) :
    Reached letters mode front ∨
      ∃ c position, HasOtherLetter letters front c position ∧
        position + mode.pending < front.length := by
  induction h with
  | start => exact .inl .start
  | @step mode next front c yielded h hs ih =>
    rcases ih with hreached | ⟨other, position, hother, hposition⟩
    · rcases step_eq_or_other letters mode front.length c with hstep | ⟨rfl, letter, hc, hl⟩
      · exact .inl (hreached.step (hstep.trans hs))
      · obtain ⟨items, read, rfl, hreading⟩ := hreached.exists_items
        cases hreading
        rw [step_opened_allChars hc] at hs
        cases hs
        right
        refine ⟨c, _, ⟨items, [], by simp, rfl, letter, hc, hl⟩, ?_⟩
        simp [Mode.pending]
    · right
      refine ⟨other, position, hother.append [c], ?_⟩
      have hpending := pending_le_of_step hs
      rw [List.length_append, List.length_singleton]
      omega

/-- A text that fails with all letters fails in the same way with some of them, unless it has
another letter before its fault. -/
theorem scan_of_scan_allChars (h : scan Letter.allChars value = .error (.defect d position)) :
    scan letters value = .error (.defect d position) ∨
      ∃ c other, HasOtherLetter letters value c other ∧ other < position := by
  obtain ⟨mode, front, rest, rfl, hreached, hhalts⟩ := exists_halts_of_scan h
  rcases hreached.restrict letters with hsome | ⟨c, other, hother, hposition⟩
  · left
    cases hhalts with
    | finish hf => exact hsome.scan_of_halts (.finish hf)
    | @step c rest hs =>
      rcases step_eq_or_other letters mode front.length c with hstep | ⟨rfl, letter, hc, -⟩
      · exact hsome.scan_of_halts (.step (hstep.trans hs))
      · rw [step_opened_allChars hc] at hs
        cases hs
  · right
    have hle := hhalts.le_position
    exact ⟨c, other, hother.append rest, by omega⟩

/-! ### Texts -/

theorem scan_eq_ok_iff {pieces : List Piece} :
    scan letters value = .ok pieces ↔
      scan Letter.allChars value = .ok pieces ∧
        ∀ token : Token, .token token ∈ pieces → token.letter.char ∈ letters := by
  constructor
  · intro h
    obtain ⟨items, rfl⟩ := exists_items_of_scan h
    obtain ⟨same, hwritten, hpieces⟩ := (lettersIn_allChars items).exists_items
    rw [scan_written] at h
    obtain rfl := Except.ok.inj h
    refine ⟨?_, lettersIn_iff.1 fun x _ => x.letter_mem⟩
    rw [← hwritten, scan_written, hpieces]
  · rintro ⟨h, hletters⟩
    obtain ⟨items, rfl⟩ := exists_items_of_scan h
    rw [scan_written] at h
    obtain rfl := Except.ok.inj h
    obtain ⟨same, hwritten, hpieces⟩ := (lettersIn_iff.2 hletters).exists_items
    rw [← hwritten, scan_written, hpieces]

theorem exists_hasOtherLetter {items : List (Item Letter.allChars)}
    (h : ¬LettersIn letters items) :
    ∃ c position, HasOtherLetter letters (written items) c position := by
  induction items with
  | nil => exact absurd (fun x hx => absurd hx List.not_mem_nil) h
  | cons item items ih =>
    by_cases hitem : LettersIn letters [item]
    · have hrest : ¬LettersIn letters items := by
        intro hrest
        apply h
        intro x hx
        rcases List.mem_cons.1 hx with hx | hx
        · exact hitem x (List.mem_singleton.2 hx)
        · exact hrest x hx
      obtain ⟨c, position, hother⟩ := ih hrest
      obtain ⟨same, hwritten, -⟩ := hitem.exists_items
      rw [written_cons, ← List.append_nil item.text, ← written_nil, ← written_cons, ← hwritten]
      exact ⟨c, _, hother.after same⟩
    · cases item with
      | plain c hc => exact absurd (fun x hx => by cases List.mem_singleton.1 hx) hitem
      | escape e => exact absurd (fun x hx => by cases List.mem_singleton.1 hx) hitem
      | expression x =>
        have hl : x.letter.char ∉ letters := by
          intro hl
          apply hitem
          intro y hy
          cases List.mem_singleton.1 hy
          exact hl
        exact ⟨x.written, 2, [], _, rfl, rfl, x.letter, x.toLower_written, hl⟩

/-- A character is its own lower case, or the upper case of that. -/
theorem toLower_eq_or_eq_toUpper (c : Character) : c.toLower = c ∨ c = c.toLower.toUpper := by
  cases c with
  | surrogate index => exact .inl rfl
  | scalar c =>
    by_cases hupper : c.isUpper = true
    · have hascii : c.toNat < 0x80 := by
        obtain ⟨-, hbound⟩ := of_decide_eq_true hupper
        exact Nat.lt_of_le_of_lt (UInt32.le_iff_toNat_le.1 hbound) (by decide)
      have hcases : ∀ n : Fin 0x80, (Char.ofNat n).isUpper = true →
          Char.ofNat n = (Char.ofNat n).toLower.toUpper := by decide +kernel
      have hc := hcases ⟨c.toNat, hascii⟩
      rw [Char.ofNat_toNat] at hc
      exact .inr (congrArg Character.scalar (hc hupper))
    · exact .inl (congrArg Character.scalar (dif_neg fun hrange => hupper (decide_eq_true hrange)))

/-- A macro letter is written in lower or in upper case. -/
theorem eq_char_or_eq_toUpper (h : c.toLower = letter.char) :
    c = letter.char ∨ c = letter.char.toUpper := by
  rw [← h]
  exact (toLower_eq_or_eq_toUpper c).imp_left Eq.symm

/-- The letters of explanations are these six, as they are written. -/
theorem written_mem_iff (x : Expression letters) :
    x.written ∈ ("crtCRT" : Text) ↔ x.letter.char ∉ Letter.domainSpecChars := by
  rw [Letter.char_mem_domainSpecChars]
  rcases eq_char_or_eq_toUpper x.toLower_written with h | h
  · rw [h]
    cases x.letter <;> decide
  · rw [h]
    cases x.letter <;> decide

theorem raises_of_hasOtherLetter (h : HasOtherLetter letters value c position) :
    Raises letters value
      { cause := .defect (.explanationLetter c), value := some value, position } :=
  ⟨_, scan_of_hasOtherLetter h, rfl⟩

/-- A text is scanned with some letters exactly if it is scanned with all of them and its macros use
no other one, and then to the same pieces.  If they do use another one, the first of these is
blamed.  A text that is not scanned with all letters has the same error with some of them, unless
another letter stands before that error and is blamed.  A domain specification is a macro string
without the letters of explanations. -/
theorem scan_restrict_exact (letters : List Character) (value : Text) :
    (∀ pieces, scan letters value = .ok pieces ↔
      scan Letter.allChars value = .ok pieces ∧
        ∀ token : Token, .token token ∈ pieces → token.letter.char ∈ letters) ∧
    (∀ pieces, scan Letter.allChars value = .ok pieces →
      (∃ token : Token, .token token ∈ pieces ∧ token.letter.char ∉ letters) →
      ∃ c position, HasOtherLetter letters value c position ∧
        Raises letters value
          { cause := .defect (.explanationLetter c), value := some value, position }) ∧
    (¬HasLongCount Letter.allChars value →
      ∀ fault, scan Letter.allChars value = .error fault →
        ∃ e, Failure.ofScan value fault = .expansion e ∧
          (Raises letters value e ∨
            ∃ (c : Character) (position : Nat), HasOtherLetter letters value c position ∧
              position < e.position ∧
              Raises letters value
                { cause := .defect (.explanationLetter c), value := some value, position })) ∧
    ((∃ pieces, scan Letter.domainSpecChars value = .ok pieces) ↔
      (∃ pieces, scan Letter.allChars value = .ok pieces) ∧
        ∀ items : List (Item Letter.allChars), written items = value →
          ∀ x : Expression Letter.allChars, .expression x ∈ items →
            x.written ∉ ("crtCRT" : Text)) := by
  refine ⟨fun pieces => scan_eq_ok_iff, ?_, ?_, ?_⟩
  · rintro pieces hscan ⟨token, htoken, hletter⟩
    obtain ⟨items, rfl⟩ := exists_items_of_scan hscan
    rw [scan_written] at hscan
    obtain rfl := Except.ok.inj hscan
    have hother : ¬LettersIn letters items := fun h => hletter (lettersIn_iff.1 h token htoken)
    obtain ⟨c, position, hposition⟩ := exists_hasOtherLetter hother
    exact ⟨c, position, hposition, raises_of_hasOtherLetter hposition⟩
  · intro hcount fault hscan
    cases fault with
    | longCount digits => exact absurd (hasLongCount_of_scan hscan) hcount
    | defect d position =>
      refine ⟨_, rfl, ?_⟩
      rcases scan_of_scan_allChars hscan with hsame | ⟨c, other, hother, hlt⟩
      · exact .inl ⟨_, hsame, rfl⟩
      · exact .inr ⟨c, other, hother, Int.ofNat_lt.2 hlt, raises_of_hasOtherLetter hother⟩
  · constructor
    · rintro ⟨pieces, hscan⟩
      obtain ⟨hall, hletters⟩ := scan_eq_ok_iff.1 hscan
      refine ⟨⟨pieces, hall⟩, ?_⟩
      rintro items rfl x hx hwritten
      rw [scan_written] at hall
      obtain rfl := Except.ok.inj hall
      exact (written_mem_iff x).1 hwritten (lettersIn_iff.2 hletters x hx)
    · rintro ⟨⟨pieces, hall⟩, hletters⟩
      obtain ⟨items, rfl⟩ := exists_items_of_scan hall
      refine ⟨pieces, scan_eq_ok_iff.2 ⟨hall, ?_⟩⟩
      rw [scan_written] at hall
      obtain rfl := Except.ok.inj hall
      apply lettersIn_iff.1
      intro x hx
      by_contra hl
      exact hletters items rfl x hx ((written_mem_iff x).2 hl)

/-- In a domain specification the letter of `%{R}` is blamed before the zero of a later macro, and
a character that is no macro letter at all before the letter of a later one. -/
theorem scan_restrict_exact_two_faults :
    let zero := ("%\x7bd\x7d%\x7bR\x7d%\x7bd0" : Text)
    let unknown := ("%\x7bq\x7d%\x7bR\x7d" : Text)
    ¬HasLongCount Letter.allChars zero ∧ ¬HasLongCount Letter.allChars unknown ∧
      scan Letter.allChars zero = .error (.defect .zeroCount 11) ∧
      scan Letter.allChars unknown = .error (.defect (.unknownLetter 'q') 2) ∧
      (∃ (c : Character) (position : Nat), HasOtherLetter Letter.domainSpecChars zero c position ∧
        position < 11 ∧ Raises Letter.domainSpecChars zero
          { cause := .defect (.explanationLetter c), value := some zero, position }) ∧
      Raises Letter.domainSpecChars unknown
        { cause := .defect (.unknownLetter 'q'), value := some unknown, position := 2 } := by
  intro zero unknown
  have hzero : scan Letter.allChars zero = .error (.defect .zeroCount 11) := by decide
  have hunknown : scan Letter.allChars unknown = .error (.defect (.unknownLetter 'q') 2) := by
    decide
  have hcount := not_hasLongCount_of_scan hzero
  have hcount' := not_hasLongCount_of_scan hunknown
  obtain ⟨-, -, hfault, -⟩ := scan_restrict_exact Letter.domainSpecChars zero
  obtain ⟨-, -, hfault', -⟩ := scan_restrict_exact Letter.domainSpecChars unknown
  refine ⟨hcount, hcount', hzero, hunknown, ?_, ?_⟩
  · obtain ⟨e, he, hsame | ⟨c, position, hother, hlt, hraises⟩⟩ := hfault hcount _ hzero
    · have hrefused : scan Letter.domainSpecChars zero =
          .error (.defect (.explanationLetter 'R') 6) := by decide
      obtain ⟨fault, hscan, hraised⟩ := hsame
      rw [hrefused] at hscan
      cases hscan
      cases he
      cases hraised
    · cases he
      exact ⟨c, position, hother, Int.ofNat_lt.1 hlt, hraises⟩
  · obtain ⟨e, he, hsame | ⟨c, position, ⟨items, rest, -, rfl, -⟩, hlt, -⟩⟩ :=
      hfault' hcount' _ hunknown
    · cases he
      exact hsame
    · cases he
      have hlt : (written items).length + 2 < 2 := Int.ofNat_lt.1 hlt
      omega

end SenderPolicy.MacroString
