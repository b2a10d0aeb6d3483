import SenderPolicy.Proofs.MacroString.Scanning

/-! Scanning of one text after another.  After a macro string the automaton stands where it started,
so it reads the text that follows as it would read that text alone: it yields the same pieces, and a
fault is the same fault at an offset that counts the characters of the macro string too. -/

namespace SenderPolicy

/-- The fault at an offset that is greater by `n`. -/
def ScanFault.shift (n : Nat) : ScanFault → ScanFault
  | .defect d position => .defect d (position + n)
  | .longCount digits => .longCount digits

namespace MacroString

variable {letters : List Character} {mode : Mode} {before : Text} {offset : Nat}

/-! ### Offsets -/

theorem countOf_shift {value length : Nat} (h : length ≤ offset) (n : Nat) :
    countOf value length (offset + n) = (countOf value length offset).mapError (.shift n) := by
  have hposition : offset + n - length = offset - length + n := by omega
  unfold countOf
  rw [hposition]
  split
  · rfl
  · split
    · rfl
    · split <;> rfl

theorem bodyStep_shift (letter : Letter) (upper : Bool) (truncation : Option Nat) (reverse : Bool)
    (run : Text) (offset n : Nat) (c : Character) :
    bodyStep letter upper truncation reverse run (offset + n) c =
      (bodyStep letter upper truncation reverse run offset c).mapError (.shift n) := by
  unfold bodyStep
  split
  · rfl
  · split
    · rfl
    · split <;> rfl

theorem step_shift (h : Reading letters mode before) (hoffset : before.length ≤ offset) (n : Nat)
    (c : Character) :
    step letters mode (offset + n) c = (step letters mode offset c).mapError (.shift n) := by
  cases h with
  | outside => rfl
  | percent =>
    have hposition : offset + n - 1 = offset - 1 + n := by
      have : 1 ≤ offset := hoffset
      omega
    simp only [step, hposition]
    split
    · rfl
    · split <;> rfl
  | opened =>
    simp only [step]
    split
    · rfl
    · split
      · rfl
      · split <;> rfl
  | counting digits =>
    have hlength : digits.length ≤ offset := by
      simp only [List.length_cons] at hoffset
      omega
    simp only [step]
    split
    · rfl
    · rw [countOf_shift hlength]
      cases countOf (Numeral.valueOf digits) digits.length offset with
      | error fault => rfl
      | ok truncation => exact bodyStep_shift ..
  | delimiting x => exact bodyStep_shift ..

theorem finish_shift (h : Reading letters mode before) (hoffset : before.length ≤ offset)
    (n : Nat) : finish mode (offset + n) = (finish mode offset).mapError (.shift n) := by
  cases h with
  | percent =>
    have hposition : offset + n - 1 = offset - 1 + n := by
      have : 1 ≤ offset := hoffset
      omega
    simp only [finish, hposition]
    rfl
  | counting digits =>
    have hlength : digits.length ≤ offset := by
      simp only [List.length_cons] at hoffset
      omega
    simp only [finish, countOf_shift hlength]
    cases countOf (Numeral.valueOf digits) digits.length offset <;> rfl
  | _ => rfl

/-- What is yielded does not depend on the offset, and faults move with it.  A fault lies within the
item that is being read, so none lies before the start of the text. -/
theorem Reading.yields_shift (h : Reading letters mode before) (hoffset : before.length ≤ offset)
    (n : Nat) (text : Text) :
    yields letters mode (offset + n) text =
      (yields letters mode offset text).mapError (.shift n) := by
  induction text generalizing mode before offset with
  | nil =>
    simp only [yields, finish_shift h hoffset]
    cases finish mode offset <;> rfl
  | cons c text ih =>
    simp only [yields, step_shift h hoffset]
    cases hstep : MacroString.step letters mode offset c with
    | error fault => rfl
    | ok result =>
      obtain ⟨yielded, next⟩ := result
      have hnext : ∃ read, Reading letters next read ∧ read.length ≤ offset + 1 := by
        have htaken := h.step hstep
        cases yielded with
        | none => exact ⟨_, htaken, by simpa using hoffset⟩
        | some piece =>
          obtain ⟨rfl, -⟩ := htaken
          exact ⟨[], .outside, Nat.zero_le _⟩
      obtain ⟨read, hread, hlength⟩ := hnext
      have hlater : yields letters next (offset + n + 1) text =
          (yields letters next (offset + 1) text).mapError (.shift n) := by
        rw [Nat.add_right_comm]
        exact ih hread hlength
      have hresult : (Except.ok (yielded, next)).mapError (ScanFault.shift n) =
          .ok (yielded, next) := rfl
      simp only [hresult, bind, Except.bind, hlater]
      cases yields letters next (offset + 1) text <;> rfl

/-! ### Pieces -/

theorem addPiece_addPiece_literal (s t : Text) (pieces : List Piece) :
    addPiece (.literal s) (addPiece (.literal t) pieces) =
      addPiece (.literal (s ++ t)) pieces := by
  rcases pieces with _ | ⟨_ | _, pieces⟩ <;> simp [addPiece]

/-- Pieces that are fused before others are put before the same pieces as they were. -/
theorem foldr_addPiece_fuse (pieces later : List Piece) :
    (fuse pieces).foldr addPiece later = pieces.foldr addPiece later := by
  induction pieces with
  | nil => rfl
  | cons piece pieces ih =>
    rw [fuse_cons, List.foldr_cons, ← ih]
    cases piece with
    | token token => rw [addPiece_token]; rfl
    | literal s =>
      cases hfused : fuse pieces with
      | nil => rfl
      | cons first rest =>
        cases first with
        | token token => rfl
        | literal t =>
          show addPiece (.literal (s ++ t)) (rest.foldr addPiece later) = _
          rw [List.foldr_cons, addPiece_addPiece_literal]

theorem fuse_append (pieces others : List Piece) :
    fuse (pieces ++ others) = pieces.foldr addPiece (fuse others) := List.foldr_append

/-- Of fused pieces, only the two at the seam can be literal text side by side. -/
theorem fuse_fuse_append_fuse (pieces others : List Piece) :
    fuse (fuse pieces ++ fuse others) = fuse (pieces ++ others) := by
  have hothers : fuse (fuse others) = fuse others := foldr_addPiece_fuse others []
  rw [fuse_append, fuse_append, hothers, foldr_addPiece_fuse]

/-! ### Texts -/

theorem yields_written_append (items : List (Item letters)) (offset : Nat) (rest : Text) :
    yields letters .outside offset (written items ++ rest) =
      (yields letters .outside (offset + (written items).length) rest).map
        (items.map Item.piece ++ ·) := by
  induction items generalizing offset with
  | nil =>
    simp only [written_nil, List.nil_append, List.length_nil, Nat.add_zero, List.map_nil]
    cases yields letters .outside offset rest <;> rfl
  | cons item items ih =>
    rw [written_cons, List.append_assoc, yields_item, ih, List.length_append, Nat.add_assoc]
    cases yields letters .outside (offset + (item.text.length + (written items).length)) rest <;>
      rfl

/-- A text after a macro string is scanned as it is alone.  Its pieces follow those of the macro
string, and its faults lie behind it. -/
theorem scan_append {a : Text} {pieces : List Piece} (ha : scan letters a = .ok pieces)
    (b : Text) :
    scan letters (a ++ b) =
      ((scan letters b).map fun others => fuse (pieces ++ others)).mapError
        (.shift a.length) := by
  obtain ⟨items, rfl⟩ := exists_items_of_scan ha
  rw [scan_written] at ha
  obtain rfl := Except.ok.inj ha
  have hshift : yields letters .outside (0 + (written items).length) b =
      (yields letters .outside 0 b).mapError (.shift (written items).length) :=
    Reading.outside.yields_shift (Nat.le_refl 0) _ b
  simp only [scan, yields_written_append, hshift]
  cases yields letters .outside 0 b with
  | error fault => rfl
  | ok others => exact congrArg Except.ok (fuse_fuse_append_fuse _ _).symm

end MacroString

end SenderPolicy
