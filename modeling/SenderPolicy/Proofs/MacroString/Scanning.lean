import SenderPolicy.Proofs.MacroString.Grammar

/-! Scanning follows the grammar.  `Reading` says what has been read of the current item where the
automaton stands; every step keeps it, and so the automaton accepts no text but those that items
make.  In the other direction, the automaton takes the text of each item to the piece that the item
stands for. -/

namespace SenderPolicy.MacroString

variable {letters : List Character}

/-! ### Pieces of items -/

theorem addPiece_token (t : Token) (pieces : List Piece) :
    addPiece (.token t) pieces = .token t :: pieces := by
  cases pieces <;> rfl

theorem fuse_cons (piece : Piece) (pieces : List Piece) :
    fuse (piece :: pieces) = addPiece piece (fuse pieces) := rfl

theorem token_mem_addPiece {token : Token} (piece : Piece) (pieces : List Piece) :
    .token token ∈ addPiece piece pieces ↔ .token token ∈ piece :: pieces := by
  rcases piece with s | t
  · rcases pieces with _ | ⟨_ | _, pieces⟩ <;> simp [addPiece]
  · rw [addPiece_token]

theorem token_mem_fuse {token : Token} (pieces : List Piece) :
    .token token ∈ fuse pieces ↔ .token token ∈ pieces := by
  induction pieces with
  | nil => rfl
  | cons piece pieces ih => rw [fuse_cons, token_mem_addPiece, List.mem_cons, List.mem_cons, ih]

theorem Item.piece_of_isLiteral {item : Item letters} (h : item.isLiteral = true) :
    item.piece = .literal item.literal := by
  cases item with
  | expression x => simp [isLiteral] at h
  | _ => rfl

/-- Another item before items that begin with a run of literal ones joins this run. -/
theorem Denotes.addPiece {item : Item letters} {items : List (Item letters)} {pieces : List Piece}
    (h : Denotes items pieces) : Denotes (item :: items) (addPiece item.piece pieces) := by
  by_cases hi : item.isLiteral = true
  · rw [Item.piece_of_isLiteral hi]
    have alone {items : List (Item letters)} {pieces : List Piece} (h : Denotes items pieces)
        (hhead : ∀ i ∈ items.head?, i.isLiteral = false) :
        Denotes (item :: items) (.literal item.literal :: pieces) := by
      simpa using Denotes.literal [item] (by simp) (by simpa using hi) hhead h
    cases h with
    | nil => exact alone .nil (by simp)
    | token h => exact alone (.token h) (by simp [Item.isLiteral])
    | @literal run rest pieces hne hrun hrest h =>
      have := Denotes.literal (item :: run) (by simp) (by simpa [hi] using hrun) hrest h
      simpa [MacroString.addPiece] using this
  · cases item with
    | expression x => rw [Item.piece, addPiece_token]; exact .token h
    | plain c hc => simp [Item.isLiteral] at hi
    | escape e => simp [Item.isLiteral] at hi

theorem denotes_fuse (items : List (Item letters)) :
    Denotes items (fuse (items.map Item.piece)) := by
  induction items with
  | nil => exact .nil
  | cons item items ih => rw [List.map_cons, fuse_cons]; exact ih.addPiece

/-- No two neighbours are literal text, and no literal text is empty. -/
structure Separated (pieces : List Piece) : Prop where
  literal_ne_nil : ∀ text, .literal text ∈ pieces → text ≠ []
  not_adjacent : ∀ s t, ¬[.literal s, .literal t] <:+: pieces

theorem Denotes.head_isLiteral {items : List (Item letters)} {pieces : List Piece} {text : Text}
    {later : List Piece} (h : Denotes items pieces) (hp : pieces = .literal text :: later) :
    ∃ item ∈ items.head?, item.isLiteral = true := by
  cases h with
  | nil => simp at hp
  | token h => simp at hp
  | @literal run rest pieces hne hrun hrest h =>
    obtain ⟨item, run, rfl⟩ := List.exists_cons_of_ne_nil hne
    exact ⟨item, by simp, hrun item (by simp)⟩

theorem Denotes.separated {items : List (Item letters)} {pieces : List Piece}
    (h : Denotes items pieces) : Separated pieces := by
  induction h with
  | nil => exact ⟨by simp, by simp⟩
  | token h ih =>
    refine ⟨fun text ht => ih.literal_ne_nil text (by simpa using ht), fun s t hst => ?_⟩
    rw [List.infix_cons_iff] at hst
    rcases hst with hst | hst
    · simp at hst
    · exact ih.not_adjacent s t hst
  | @literal run rest pieces hne hrun hrest h ih =>
    refine ⟨fun text ht => ?_, fun s t hst => ?_⟩
    · rcases List.mem_cons.1 ht with ht | ht
      · obtain ⟨item, run, rfl⟩ := List.exists_cons_of_ne_nil hne
        have := Item.literal_ne_nil (hrun item (by simp))
        simp_all
      · exact ih.literal_ne_nil text ht
    · rw [List.infix_cons_iff] at hst
      rcases hst with ⟨later, hst⟩ | hst
      · obtain ⟨item, hitem, hl⟩ := h.head_isLiteral (List.cons.inj hst).2.symm
        simp [hrest item hitem] at hl
      · exact ih.not_adjacent s t hst

theorem foldr_addPiece_run {run : List (Item letters)} {pieces : List Piece} (hne : run ≠ [])
    (hrun : ∀ item ∈ run, item.isLiteral = true)
    (hp : ∀ text later, pieces ≠ .literal text :: later) :
    (run.map Item.piece).foldr addPiece pieces =
      .literal (run.flatMap Item.literal) :: pieces := by
  induction run with
  | nil => exact absurd rfl hne
  | cons item run ih =>
    rw [List.map_cons, List.foldr_cons, Item.piece_of_isLiteral (hrun item (by simp))]
    cases run with
    | nil =>
      rcases pieces with _ | ⟨_ | _, later⟩
      · simp [addPiece]
      · exact absurd rfl (hp _ later)
      · simp [addPiece]
    | cons other run =>
      rw [ih (by simp) fun i hi => hrun i (List.mem_cons_of_mem _ hi)]
      simp [addPiece]

theorem Denotes.eq_fuse {items : List (Item letters)} {pieces : List Piece}
    (h : Denotes items pieces) : pieces = fuse (items.map Item.piece) := by
  induction h with
  | nil => rfl
  | token h ih => rw [List.map_cons, fuse_cons, Item.piece, addPiece_token, ← ih]
  | @literal run rest pieces hne hrun hrest h ih =>
    rw [List.map_append, fuse, List.foldr_append, ← fuse, ← ih, foldr_addPiece_run hne hrun]
    intro text later hp
    obtain ⟨item, hitem, hl⟩ := h.head_isLiteral hp
    simp [hrest item hitem] at hl

/-! ### What the automaton accepts -/

/-- What has been read of an item where the automaton stands. -/
inductive Reading (letters : List Character) : Mode → Text → Prop
  | outside : Reading letters .outside []
  | percent : Reading letters .percent ['%']
  | opened : Reading letters .opened ['%', '{']
  | counting {letter : Letter} {written : Character} (digits : Text) :
      written.isAlpha = true → written.toLower = letter.char → letter.char ∈ letters →
      (∀ c ∈ digits, c.isDigit = true) →
      Reading letters (.counting letter written.isUpper (Numeral.valueOf digits) digits.length)
        (.scalar '%' :: .scalar '{' :: written :: digits)
  | delimiting (x : Expression letters) :
      Reading letters (.delimiting x.letter x.written.isUpper x.count x.mark.isSome x.run) x.opening

/-- What has been read after a step: a part of an item where nothing is yielded, and otherwise an
item that stands for what is yielded. -/
def Taken (letters : List Character) (text : Text) (yielded : Yield) (next : Mode) : Prop :=
  match yielded with
  | none => Reading letters next text
  | some piece => next = .outside ∧ ∃ item : Item letters, item.text = text ∧ item.piece = piece

theorem bodyStep_taken {x : Expression letters} {offset : Nat} {c : Character} {yielded : Yield}
    {next : Mode}
    (h : bodyStep x.letter x.written.isUpper x.count x.mark.isSome x.run offset c =
      .ok (yielded, next)) : Taken letters (x.opening ++ [c]) yielded next := by
  unfold bodyStep at h
  split at h
  · next hc =>
    obtain ⟨rfl, rfl⟩ := Prod.mk.inj (Except.ok.inj h)
    exact ⟨rfl, .expression x, by rw [hc]; rfl, rfl⟩
  · split at h
    · next hc =>
      obtain ⟨rfl, rfl⟩ := Prod.mk.inj (Except.ok.inj h)
      have hrun : ∀ d ∈ x.run ++ [c], d ∈ (".-+,/_=" : Text) := by
        intro d hd
        rcases List.mem_append.1 hd with hd | hd
        · exact x.mem_delimiters d hd
        · rw [List.mem_singleton.1 hd]; exact hc
      have := Reading.delimiting { x with run := x.run ++ [c], mem_delimiters := hrun }
      simpa [Taken, Expression.opening, Expression.count] using this
    · split at h
      · next hc =>
        obtain ⟨rfl, rfl⟩ := Prod.mk.inj (Except.ok.inj h)
        obtain ⟨hm, hr, hc⟩ := hc
        have hmark : x.mark = none := by simpa using hm
        have := Reading.delimiting { x with mark := some c, mark_eq := by simpa using hc }
        simpa [Taken, Expression.opening, Expression.count, hmark, hr] using this
      · simp at h

theorem countOf_eq_ok {digits : Text} {offset : Nat} {truncation : Option Nat}
    (h : countOf (Numeral.valueOf digits) digits.length offset = .ok truncation) :
    digits.length ≤ 4300 ∧ (digits ≠ [] → Numeral.valueOf digits ≠ 0) ∧
      truncation = if digits = [] then none else some (Numeral.valueOf digits) := by
  unfold countOf at h
  split at h
  · next hl =>
    obtain rfl := List.length_eq_zero_iff.1 hl
    exact ⟨by simp, by simp, by simpa using h.symm⟩
  · next hl =>
    split at h
    · simp at h
    · next hlimit =>
      split at h
      · simp at h
      · next hv =>
        have hd : digits ≠ [] := fun he => hl (by simp [he])
        exact ⟨Nat.not_lt.1 hlimit, fun _ => hv, by simpa [hd] using h.symm⟩

theorem isAlpha_of_toLower {c : Character} {letter : Letter} (h : c.toLower = letter.char) :
    c.isAlpha = true := by
  cases c with
  | surrogate index => cases letter <;> cases h
  | scalar c =>
    by_cases hu : c.isUpper = true
    · change (c.isUpper || c.isLower) = true
      rw [hu, Bool.true_or]
    · have hc : c.toLower = c := dif_neg fun hrange => hu (decide_eq_true hrange)
      rw [Character.toLower_scalar, hc] at h
      rw [h]
      cases letter <;> decide

theorem valueOf_append_digit (digits : Text) (c : Character) :
    Numeral.valueOf (digits ++ [c]) = Numeral.valueOf digits * 10 + (c.toNat - '0'.toNat) := by
  simp [Numeral.valueOf]

section Counting

variable {letter : Letter} {upper : Bool} {value length offset : Nat} {c : Character}

theorem step_counting_digit (hc : c.isDigit = true) :
    step letters (.counting letter upper value length) offset c =
      .ok (none, .counting letter upper (value * 10 + (c.toNat - '0'.toNat)) (length + 1)) := by
  simp [step, hc]

/-- The count is read where its digits end. -/
theorem step_counting_ok {truncation : Option Nat} (hc : ¬c.isDigit = true)
    (hcount : countOf value length offset = .ok truncation) :
    step letters (.counting letter upper value length) offset c =
      bodyStep letter upper truncation false [] offset c := by
  simp [step, hc, hcount, bind, Except.bind]

theorem step_counting_error {fault : ScanFault} (hc : ¬c.isDigit = true)
    (hcount : countOf value length offset = .error fault) :
    step letters (.counting letter upper value length) offset c = .error fault := by
  simp [step, hc, hcount, bind, Except.bind]

end Counting

theorem step_counting_taken {letter : Letter} {written c : Character} {digits : Text} {offset : Nat}
    {yielded : Yield} {next : Mode} (ha : written.isAlpha = true)
    (hw : written.toLower = letter.char) (hl : letter.char ∈ letters)
    (hd : ∀ c ∈ digits, c.isDigit = true)
    (hs : step letters (.counting letter written.isUpper (Numeral.valueOf digits) digits.length)
      offset c = .ok (yielded, next)) :
    Taken letters ((.scalar '%' :: .scalar '{' :: written :: digits) ++ [c]) yielded next := by
  by_cases hc : c.isDigit = true
  · rw [step_counting_digit hc] at hs
    obtain ⟨rfl, rfl⟩ := Prod.mk.inj (Except.ok.inj hs)
    have hdc : ∀ d ∈ digits ++ [c], d.isDigit = true :=
      List.forall_mem_append.2 ⟨hd, List.forall_mem_singleton.2 hc⟩
    have := Reading.counting _ ha hw hl hdc
    rw [valueOf_append_digit, List.length_append] at this
    exact this
  · rcases hcount : countOf (Numeral.valueOf digits) digits.length offset with fault | truncation
    · rw [step_counting_error hc hcount] at hs
      cases hs
    · rw [step_counting_ok hc hcount] at hs
      obtain ⟨hlength, hvalue, htruncation⟩ := countOf_eq_ok hcount
      let x : Expression letters :=
        ⟨letter, written, digits, none, [], ha, hw, hl, hd, hlength, hvalue, by simp, by simp⟩
      have hb : bodyStep x.letter x.written.isUpper x.count x.mark.isSome x.run offset c =
          .ok (yielded, next) := by
        simpa [x, Expression.count, ← htruncation] using hs
      simpa [x, Expression.opening] using bodyStep_taken hb

theorem exists_escape {c : Character} {text : Text} (h : escape? c = some text) :
    ∃ e : Escape, e.char = c ∧ e.literal = text := by
  unfold escape? at h
  split at h <;> simp only [Option.some.injEq, reduceCtorEq] at h
  · exact ⟨.percent, rfl, h⟩
  · exact ⟨.underscore, rfl, h⟩
  · exact ⟨.dash, rfl, h⟩

/-- Every step takes what has been read to a part of an item, or to a whole item. -/
theorem Reading.step {mode next : Mode} {before : Text} {offset : Nat} {c : Character}
    {yielded : Yield}
    (h : Reading letters mode before)
    (hs : step letters mode offset c = .ok (yielded, next)) :
    Taken letters (before ++ [c]) yielded next := by
  cases h with
  | outside =>
    by_cases hc : c = '%'
    · obtain ⟨rfl, rfl⟩ : yielded = none ∧ next = .percent := by
        simpa [MacroString.step, hc, eq_comm] using hs
      rw [hc]
      exact Reading.percent
    · obtain ⟨rfl, rfl⟩ : yielded = some (.literal [c]) ∧ next = .outside := by
        simpa [MacroString.step, hc, eq_comm] using hs
      exact ⟨rfl, .plain c hc, rfl, rfl⟩
  | percent =>
    simp only [MacroString.step] at hs
    split at hs
    · next hc =>
      obtain ⟨rfl, rfl⟩ := Prod.mk.inj (Except.ok.inj hs)
      rw [hc]
      exact Reading.opened
    · split at hs
      · next text htext =>
        obtain ⟨rfl, rfl⟩ := Prod.mk.inj (Except.ok.inj hs)
        obtain ⟨e, rfl, rfl⟩ := exists_escape htext
        exact ⟨rfl, .escape e, rfl, rfl⟩
      · simp at hs
  | opened =>
    simp only [MacroString.step] at hs
    split at hs
    · simp at hs
    · split at hs
      · simp at hs
      · next letter hletter =>
        have hw : c.toLower = letter.char := (Letter.char_of_ofChar? hletter).symm
        split at hs
        · next hl =>
          obtain ⟨rfl, rfl⟩ := Prod.mk.inj (Except.ok.inj hs)
          exact Reading.counting [] (isAlpha_of_toLower hw) hw (hw ▸ hl) (by simp)
        · simp at hs
  | counting _ ha hw hl hd => exact step_counting_taken ha hw hl hd hs
  | delimiting x => exact bodyStep_taken hs

theorem eq_outside_of_finish {mode : Mode} {offset : Nat} (h : finish mode offset = .ok ()) :
    mode = .outside := by
  cases mode with
  | outside => rfl
  | counting letter upper value length =>
    simp only [finish] at h
    cases hc : countOf value length offset <;> simp [hc, bind, Except.bind] at h
  | _ => simp [finish] at h

theorem yields_cons_eq_ok {mode : Mode} {offset : Nat} {c : Character} {text : Text}
    {pieces : List Piece} (h : yields letters mode offset (c :: text) = .ok pieces) :
    ∃ yielded next later, step letters mode offset c = .ok (yielded, next) ∧
      yields letters next (offset + 1) text = .ok later ∧ pieces = yielded.toList ++ later := by
  simp only [yields] at h
  rcases hs : step letters mode offset c with fault | ⟨yielded, next⟩
  · simp [hs, bind, Except.bind] at h
  · rcases hy : yields letters next (offset + 1) text with fault | later
    · simp [hs, hy, bind, Except.bind] at h
    · exact ⟨yielded, next, later, rfl, hy, by simpa [hs, hy, bind, Except.bind, eq_comm] using h⟩

/-- The automaton yields the pieces of items that make the text. -/
theorem Reading.items_of_yields {mode : Mode} {before : Text} {offset : Nat} {text : Text}
    {pieces : List Piece} (h : Reading letters mode before)
    (hy : yields letters mode offset text = .ok pieces) :
    ∃ items : List (Item letters), written items = before ++ text ∧
      items.map Item.piece = pieces := by
  induction text generalizing mode before offset pieces with
  | nil =>
    simp only [yields] at hy
    rcases hf : finish mode offset with fault | done
    · simp [hf, bind, Except.bind] at hy
    · obtain rfl := eq_outside_of_finish hf
      cases h
      exact ⟨[], by simp, by simpa [hf, bind, Except.bind] using hy⟩
  | cons c text ih =>
    obtain ⟨yielded, next, later, hs, hlater, rfl⟩ := yields_cons_eq_ok hy
    have ht := h.step hs
    cases yielded with
    | none =>
      obtain ⟨items, hw, hp⟩ := ih ht hlater
      exact ⟨items, by simpa using hw, hp⟩
    | some piece =>
      obtain ⟨rfl, item, hitem, rfl⟩ := ht
      obtain ⟨items, hw, rfl⟩ := ih .outside hlater
      exact ⟨item :: items, by simpa [hitem] using hw, rfl⟩

/-! ### What the automaton yields -/

theorem yields_of_step {mode next : Mode} {offset : Nat} {c : Character} {yielded : Yield}
    (h : step letters mode offset c = .ok (yielded, next)) (text : Text) :
    yields letters mode offset (c :: text) =
      (yields letters next (offset + 1) text).map (yielded.toList ++ ·) := by
  simp only [yields, h, bind, Except.bind]
  cases yields letters next (offset + 1) text <;> rfl

theorem yields_of_silent_step {mode next : Mode} {offset : Nat} {c : Character}
    (h : step letters mode offset c = .ok (none, next)) (text : Text) :
    yields letters mode offset (c :: text) = yields letters next (offset + 1) text := by
  rw [yields_of_step h]
  cases yields letters next (offset + 1) text <;> rfl

/-- The automaton counts from a letter on that is allowed. -/
theorem step_opened {letter : Letter} {c : Character} (hc : c.toLower = letter.char)
    (hl : letter.char ∈ letters) (offset : Nat) :
    step letters .opened offset c =
      .ok (none, .counting letter c.isUpper (Numeral.valueOf []) ([] : Text).length) := by
  have hbrace : c ≠ '}' := by
    intro he
    have halpha := isAlpha_of_toLower hc
    rw [he] at halpha
    exact absurd halpha (by decide)
  simp [step, hbrace, hc, Letter.ofChar?_char, hl, Numeral.valueOf]

theorem yields_digits (letter : Letter) (upper : Bool) (before : Text) {digits : Text}
    (hd : ∀ c ∈ digits, c.isDigit = true) (offset : Nat) (text : Text) :
    yields letters (.counting letter upper (Numeral.valueOf before) before.length) offset
        (digits ++ text) =
      yields letters
        (.counting letter upper (Numeral.valueOf (before ++ digits)) (before ++ digits).length)
        (offset + digits.length) text := by
  induction digits generalizing before offset with
  | nil => simp
  | cons c digits ih =>
    have hs : step letters
        (.counting letter upper (Numeral.valueOf before) before.length) offset c =
        .ok (none, .counting letter upper (Numeral.valueOf (before ++ [c]))
          (before ++ [c]).length) := by
      rw [step_counting_digit (hd c (by simp)), valueOf_append_digit, List.length_append]
      rfl
    rw [List.cons_append, yields_of_silent_step hs,
      ih (before ++ [c]) fun d hm => hd d (List.mem_cons_of_mem _ hm), List.append_assoc,
      List.length_cons, Nat.add_assoc offset, Nat.add_comm 1]
    rfl

theorem yields_run (letter : Letter) (upper : Bool) (truncation : Option Nat) (reverse : Bool)
    (before : Text) {run : Text} (hrun : ∀ c ∈ run, c ∈ delimiters) (offset : Nat) (text : Text) :
    yields letters (.delimiting letter upper truncation reverse before) offset (run ++ text) =
      yields letters (.delimiting letter upper truncation reverse (before ++ run))
        (offset + run.length) text := by
  induction run generalizing before offset with
  | nil => simp
  | cons c run ih =>
    have hc : c ∈ delimiters := hrun c (by simp)
    have hbrace : c ≠ '}' := fun he => by subst he; simp [delimiters] at hc
    have hs : step letters (.delimiting letter upper truncation reverse before) offset c =
        .ok (none, .delimiting letter upper truncation reverse (before ++ [c])) := by
      simp [step, bodyStep, hc, hbrace]
    rw [List.cons_append, yields_of_silent_step hs,
      ih _ fun d hm => hrun d (List.mem_cons_of_mem _ hm), List.append_assoc, List.length_cons,
      Nat.add_assoc offset, Nat.add_comm 1]
    rfl

theorem countOf_digits (x : Expression letters) (offset : Nat) :
    countOf (Numeral.valueOf x.digits) x.digits.length offset = .ok x.count := by
  unfold countOf Expression.count
  by_cases hd : x.digits = []
  · simp [hd]
  · have hlimit : ¬countDigitLimit < x.digits.length := Nat.not_lt.2 x.length_digits
    simp [hd, hlimit, x.value_ne_zero hd]

/-- After the digits of a macro, the automaton stands at its delimiters. -/
theorem yields_counting (x : Expression letters) {offset : Nat} {c : Character}
    (hc : c.isDigit = false) (text : Text) :
    yields letters
        (.counting x.letter x.written.isUpper (Numeral.valueOf x.digits) x.digits.length)
        offset (c :: text) =
      yields letters (.delimiting x.letter x.written.isUpper x.count false []) offset
        (c :: text) := by
  have hs : step letters
        (.counting x.letter x.written.isUpper (Numeral.valueOf x.digits) x.digits.length) offset c =
      step letters (.delimiting x.letter x.written.isUpper x.count false []) offset c :=
    step_counting_ok (by simp [hc]) (countOf_digits x offset)
  rw [yields, yields, hs]

theorem yields_mark (x : Expression letters) (offset : Nat) (text : Text) :
    yields letters (.delimiting x.letter x.written.isUpper x.count false []) offset
        (x.mark.toList ++ text) =
      yields letters (.delimiting x.letter x.written.isUpper x.count x.mark.isSome [])
        (offset + x.mark.toList.length) text := by
  rcases hm : x.mark with _ | m
  · rfl
  · have hs : step letters (.delimiting x.letter x.written.isUpper x.count false []) offset m =
        .ok (none, .delimiting x.letter x.written.isUpper x.count true []) := by
      rcases x.mark_eq m (by simp [hm]) with rfl | rfl <;> rfl
    exact yields_of_silent_step hs text

/-- The automaton takes the text of a macro to its token. -/
theorem yields_expression (x : Expression letters) (offset : Nat) (rest : Text) :
    yields letters .outside offset (x.text ++ rest) =
      (yields letters .outside (offset + x.text.length) rest).map (.token x.token :: ·) := by
  obtain ⟨c, text, htext⟩ : ∃ c text, x.mark.toList ++ (x.run ++ .scalar '}' :: rest) = c :: text :=
    List.exists_cons_of_ne_nil (by simp)
  have hc : c.isDigit = false := by
    have hdigit : ∀ d ∈ ("rR\x7d.-+,/_=" : Text), d.isDigit = false := by simp
    exact hdigit c (x.mem_of_head_mark rest c (by simp [htext]))
  have hclosing (n : Nat) : step letters
      (.delimiting x.letter x.written.isUpper x.count x.mark.isSome x.run) n '}' =
        .ok (some (.token x.token), .outside) := rfl
  calc
    yields letters .outside offset (x.text ++ rest)
      = yields letters .outside offset
          (.scalar '%' :: .scalar '{' :: x.written ::
            (x.digits ++ (x.mark.toList ++ (x.run ++ .scalar '}' :: rest)))) := by
        simp [Expression.text, Expression.opening]
    _ = yields letters
          (.counting x.letter x.written.isUpper (Numeral.valueOf []) ([] : Text).length)
          (offset + 1 + 1 + 1) (x.digits ++ (x.mark.toList ++ (x.run ++ .scalar '}' :: rest))) := by
        rw [yields_of_silent_step rfl, yields_of_silent_step rfl,
          yields_of_silent_step (step_opened x.toLower_written x.letter_mem _)]
    _ = yields letters
          (.delimiting x.letter x.written.isUpper x.count x.mark.isSome x.run)
          (offset + 1 + 1 + 1 + x.digits.length + x.mark.toList.length + x.run.length)
          (.scalar '}' :: rest) := by
        rw [yields_digits _ _ _ x.isDigit_of_mem, List.nil_append, htext, yields_counting x hc,
          ← htext, yields_mark, yields_run _ _ _ _ _ x.mem_delimiters, List.nil_append]
    _ = (yields letters .outside (offset + x.text.length) rest).map (.token x.token :: ·) := by
        rw [yields_of_step (hclosing _)]
        congr 2
        simp [Expression.text, Expression.opening]
        omega

theorem yields_item (item : Item letters) (offset : Nat) (rest : Text) :
    yields letters .outside offset (item.text ++ rest) =
      (yields letters .outside (offset + item.text.length) rest).map (item.piece :: ·) := by
  cases item with
  | plain c hc =>
    have hs : step letters .outside offset c = .ok (some (.literal [c]), .outside) := by
      simp [step, hc]
    exact yields_of_step hs rest
  | escape e =>
    have hs : step letters .percent (offset + 1) e.char =
        .ok (some (.literal e.literal), .outside) := by
      cases e <;> rfl
    show yields letters .outside offset (.scalar '%' :: e.char :: rest) = _
    rw [yields_of_silent_step rfl, yields_of_step hs]
    rfl
  | expression x => exact yields_expression x offset rest

theorem yields_written (items : List (Item letters)) (offset : Nat) :
    yields letters .outside offset (written items) = .ok (items.map Item.piece) := by
  induction items generalizing offset with
  | nil => rfl
  | cons item items ih => rw [written_cons, yields_item, ih]; rfl

theorem scan_written (items : List (Item letters)) :
    scan letters (written items) = .ok (fuse (items.map Item.piece)) := by
  rw [scan, yields_written]; rfl

theorem exists_items_of_scan {value : Text} {pieces : List Piece}
    (h : scan letters value = .ok pieces) :
    ∃ items : List (Item letters), written items = value := by
  rcases hy : yields letters .outside 0 value with fault | yielded
  · simp [scan, hy, Except.map] at h
  · obtain ⟨items, hw, -⟩ := Reading.outside.items_of_yields hy
    exact ⟨items, by simpa using hw⟩

theorem token_mem_pieces_iff {items : List (Item letters)} {token : Token} :
    .token token ∈ fuse (items.map Item.piece) ↔
      ∃ x : Expression letters, .expression x ∈ items ∧ token = x.token := by
  rw [token_mem_fuse, List.mem_map]
  constructor
  · rintro ⟨item, hitem, hpiece⟩
    cases item with
    | expression x => exact ⟨x, hitem, (Piece.token.inj hpiece).symm⟩
    | plain c hc => cases hpiece
    | escape e => cases hpiece
  · rintro ⟨x, hx, rfl⟩
    exact ⟨_, hx, rfl⟩

/-- Every macro that scanning finds is one that is written in the text. -/
theorem exists_expression_of_scan {value : Text} {pieces : List Piece} {token : Token}
    (h : scan letters value = .ok pieces) (htoken : .token token ∈ pieces) :
    ∃ x : Expression letters, token = x.token := by
  obtain ⟨items, rfl⟩ := exists_items_of_scan h
  rw [scan_written] at h
  obtain rfl := Except.ok.inj h
  obtain ⟨x, -, rfl⟩ := token_mem_pieces_iff.1 htoken
  exact ⟨x, rfl⟩

/-- A text is scanned exactly if items make it.  Then no other items make it, and the pieces are
what these items stand for. -/
theorem scan_exact (letters : List Character) (value : Text) :
    ((∃ pieces, scan letters value = .ok pieces) ↔
      ∃ items : List (Item letters), written items = value) ∧
    ∀ items : List (Item letters), written items = value →
      (∀ others : List (Item letters), written others = value → others = items) ∧
      ∃ pieces, scan letters value = .ok pieces ∧ Denotes items pieces ∧
        (∀ others, Denotes items others → others = pieces) ∧ Separated pieces := by
  refine ⟨⟨fun ⟨pieces, h⟩ => exists_items_of_scan h, ?_⟩, ?_⟩
  · rintro ⟨items, rfl⟩
    exact ⟨_, scan_written items⟩
  · rintro items rfl
    refine ⟨fun others h => written_injective h, fuse (items.map Item.piece), scan_written items,
      denotes_fuse items, fun others h => h.eq_fuse, (denotes_fuse items).separated⟩

/-- In `%{D05R-.}r%-`, the first `R` is the reversal mark and the first dash a delimiter; outside of
the braces the letter stands for itself, and the dash makes an escape. -/
theorem scan_exact_mark_and_dash :
    ∃ items : List (Item ['d']), written items = ("%\x7bD05R-.\x7dr%-" : Text) ∧
      (∀ others : List (Item ['d']), written others = ("%\x7bD05R-.\x7dr%-" : Text) →
        others = items) ∧
      ∃ pieces, scan ['d'] ("%\x7bD05R-.\x7dr%-" : Text) = .ok pieces ∧ Denotes items pieces ∧
        (∀ others, Denotes items others → others = pieces) ∧ Separated pieces := by
  let x : Expression ['d'] :=
    ⟨.currentDomain, 'D', ("05" : Text), some (.scalar 'R'), ("-." : Text), by decide, by decide,
      by decide, by simp, by decide, by decide, by simp, by simp⟩
  have hw : written [.expression x, .plain 'r' (by decide), .escape .dash] =
      ("%\x7bD05R-.\x7dr%-" : Text) := by decide
  exact ⟨_, hw, (scan_exact ['d'] _).2 _ hw⟩

end SenderPolicy.MacroString
