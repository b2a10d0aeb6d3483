import Mathlib.Data.List.Chain
import SenderPolicy.Proofs.MacroString.Viability

/-! Scanning from left to right.  A macro string does not change how the text after it is scanned,
except that literal text on both sides of the seam becomes one piece.  A text that cannot become a
macro string fails in the same way whatever follows it. -/

namespace SenderPolicy.MacroString

variable {letters : List Character} {mode : Mode} {a b : Text} {fault : ScanFault}
  {pieces others : List Piece}

/-- Scanning fails, and the failure is an error of expansion. -/
def Raises (letters : List Character) (value : Text) (e : ExpansionError) : Prop :=
  ∃ fault, scan letters value = .error fault ∧ Failure.ofScan value fault = .expansion e

/-! ### The seam -/

/-- Pieces and then others, where two literal texts that meet become one. -/
def joined (pieces others : List Piece) : List Piece :=
  match pieces.getLast?, others with
  | some (.literal s), .literal t :: later => pieces.dropLast ++ .literal (s ++ t) :: later
  | _, _ => pieces ++ others

def IsLiteral : Piece → Prop
  | .literal _ => True
  | .token _ => False

/-- At most one of two pieces is literal text. -/
def Apart (p q : Piece) : Prop := ¬(IsLiteral p ∧ IsLiteral q)

theorem Separated.isChain (h : Separated pieces) : pieces.IsChain Apart := by
  rw [List.isChain_iff_forall_rel_of_append_cons_cons]
  rintro p q before later rfl ⟨hp, hq⟩
  cases p with
  | token t => exact hp
  | literal s =>
    cases q with
    | token t => exact hq
    | literal t => exact h.not_adjacent s t ⟨before, later, by simp⟩

/-- Pieces that are apart are put before others as they are. -/
theorem foldr_addPiece_of_isChain (h : (pieces ++ others).IsChain Apart) :
    pieces.foldr addPiece others = pieces ++ others := by
  induction pieces with
  | nil => rfl
  | cons piece pieces ih =>
    rw [List.cons_append] at h
    rw [List.foldr_cons, ih h.tail, List.cons_append]
    cases piece with
    | token token => rw [addPiece_token]
    | literal s =>
      cases hlater : pieces ++ others with
      | nil => rfl
      | cons first later =>
        cases first with
        | token token => rfl
        | literal t =>
          rw [hlater, List.isChain_cons_cons] at h
          exact absurd ⟨trivial, trivial⟩ h.1

theorem fuse_of_isChain (h : pieces.IsChain Apart) : fuse pieces = pieces := by
  have hfused : pieces.foldr addPiece [] = pieces ++ [] :=
    foldr_addPiece_of_isChain (by rwa [List.append_nil])
  rwa [List.append_nil] at hfused

/-- Of fused pieces, only the two at the seam are fused again. -/
theorem fuse_append_eq_joined (hpieces : pieces.IsChain Apart) (hothers : others.IsChain Apart) :
    fuse (pieces ++ others) = joined pieces others := by
  rw [fuse_append, fuse_of_isChain hothers]
  unfold joined
  split
  · next s t later hlast =>
    have hsplit : pieces = pieces.dropLast ++ [.literal s] :=
      (List.dropLast_append_getLast? _ hlast).symm
    generalize pieces.dropLast = before at hsplit
    subst hsplit
    rw [List.isChain_append] at hpieces
    rw [List.isChain_cons] at hothers
    rw [List.foldr_append]
    show before.foldr addPiece (.literal (s ++ t) :: later) = _
    apply foldr_addPiece_of_isChain
    rw [List.isChain_append, List.isChain_cons]
    -- what is apart from literal text is so whatever this text is
    refine ⟨hpieces.1, hothers, ?_⟩
    intro p hp q hq
    obtain rfl := Option.mem_some.1 hq
    exact hpieces.2.2 p hp (.literal s) rfl
  · next hseam =>
    apply foldr_addPiece_of_isChain
    rw [List.isChain_append]
    refine ⟨hpieces, hothers, ?_⟩
    rintro p hp q hq ⟨hpliteral, hqliteral⟩
    cases p with
    | token t => exact hpliteral
    | literal s =>
      cases q with
      | token t => exact hqliteral
      | literal t =>
        obtain ⟨later, rfl⟩ := List.head?_eq_some_iff.1 hq
        exact hseam s t later hp rfl

theorem isChain_of_scan (h : scan letters a = .ok pieces) : pieces.IsChain Apart := by
  obtain ⟨items, rfl⟩ := exists_items_of_scan h
  rw [scan_written] at h
  obtain rfl := Except.ok.inj h
  exact (denotes_fuse items).separated.isChain

/-! ### Faults -/

/-- A digit more than there may be makes a count too long. -/
theorem Reached.hasLongCount_of_digit {letter : Letter} {upper : Bool} {value length : Nat}
    (h : Reached letters (.counting letter upper value length) a) (hlimit : 4300 ≤ length)
    {c : Character} (hdigit : c.isDigit = true) (b : Text) :
    HasLongCount letters (a ++ c :: b) := by
  obtain ⟨items, read, rfl, hreading⟩ := h.exists_items
  cases hreading with
  | @counting _ written digits ha hw hl hdigits =>
    refine ⟨items, written, digits ++ [c], b, by simp, ⟨letter, hw, hl⟩,
      List.forall_mem_append.2 ⟨hdigits, List.forall_mem_singleton.2 hdigit⟩, ?_⟩
    rw [List.length_append, List.length_singleton]
    omega

/-- Where a text ends that cannot become a macro string, the next character is a fault, and the
same one as the end.  Only a count of zeros can be in question, with as many as there may be. -/
theorem Reached.scan_append_of_finish (h : Reached letters mode a)
    (hf : finish mode a.length = .error fault) (hviable : ¬Viable letters a)
    (hletter : ∃ letter : Letter, letter.char ∈ letters) (hcount : ¬HasLongCount letters (a ++ b)) :
    scan letters (a ++ b) = .error fault := by
  cases b with
  | nil => exact h.scan_of_halts (.finish hf)
  | cons c b =>
    cases shortfall_of_finish hf with
    | escape =>
      obtain ⟨items, rfl⟩ := h.exists_items_of_percent
      exact absurd (viable_percent items) hviable
    | opening => exact absurd (h.viable_opened hletter) hviable
    | afterCount hcountOf => exact absurd (h.viable_of_countOf hcountOf) hviable
    | body => exact absurd h.viable_delimiting hviable
    | @count letter upper value length fault hcountOf =>
      have hlimit : 4300 ≤ length := by
        by_contra hshort
        exact hviable (h.viable_of_lt (by omega))
      have hdigit : ¬c.isDigit = true := by
        intro hdigit
        exact hcount (h.hasLongCount_of_digit hlimit hdigit b)
      apply h.scan_of_halts
      apply Halts.step
      exact step_counting_error hdigit hcountOf

theorem scan_append_of_not_viable (hscan : scan letters a = .error fault)
    (hviable : ¬Viable letters a) (hletter : ∃ letter : Letter, letter.char ∈ letters)
    (hcount : ¬HasLongCount letters (a ++ b)) : scan letters (a ++ b) = .error fault := by
  obtain ⟨mode, front, rest, rfl, hreached, hhalts⟩ := exists_halts_of_scan hscan
  cases hhalts with
  | finish hf =>
    rw [List.append_nil] at hviable hcount ⊢
    exact hreached.scan_append_of_finish hf hviable hletter hcount
  | step hs =>
    rw [List.append_assoc]
    exact hreached.scan_of_halts (.step hs)

/-- A text after a macro string is scanned exactly if it is a macro string itself.  Its pieces
follow those of the first one, and its error is the same at an offset that counts the first one too.
The error of a text that no text makes a macro string stays as it is. -/
theorem scan_append_exact (letters : List Character)
    (hletter : ∃ letter : Letter, letter.char ∈ letters)
    (a b : Text) (hcount : ¬HasLongCount letters (a ++ b)) :
    (∀ pieces, scan letters a = .ok pieces →
      ((∃ all, scan letters (a ++ b) = .ok all) ↔ ∃ others, scan letters b = .ok others) ∧
      (∀ others, scan letters b = .ok others →
        scan letters (a ++ b) = .ok (joined pieces others)) ∧
      ∀ fault, scan letters b = .error fault → ∃ e, Failure.ofScan b fault = .expansion e ∧
        Raises letters (a ++ b)
          { e with value := some (a ++ b), position := a.length + e.position }) ∧
    ∀ fault, scan letters a = .error fault → ¬Viable letters a →
      ∃ e, Failure.ofScan a fault = .expansion e ∧
        Raises letters (a ++ b) { e with value := some (a ++ b) } := by
  constructor
  · intro pieces ha
    refine ⟨?_, ?_, ?_⟩
    · rw [scan_append ha]
      cases scan letters b with
      | ok others => exact ⟨fun _ => ⟨others, rfl⟩, fun _ => ⟨_, rfl⟩⟩
      | error fault =>
        constructor
        · rintro ⟨all, hall⟩
          cases hall
        · rintro ⟨others, hothers⟩
          cases hothers
    · intro others hb
      rw [scan_append ha, hb,
        ← fuse_append_eq_joined (isChain_of_scan ha) (isChain_of_scan hb)]
      rfl
    · intro fault hb
      cases fault with
      | longCount digits =>
        obtain ⟨items, rfl⟩ := exists_items_of_scan ha
        exact absurd ((hasLongCount_of_scan hb).after items) hcount
      | defect d position =>
        refine ⟨_, rfl, .defect d (position + a.length), ?_, ?_⟩
        · rw [scan_append ha, hb]
          rfl
        · simp [Failure.ofScan, Int.add_comm]
  · intro fault ha hviable
    cases fault with
    | longCount digits => exact absurd ((hasLongCount_of_scan ha).append b) hcount
    | defect d position =>
      exact ⟨_, rfl, .defect d position, scan_append_of_not_viable ha hviable hletter hcount, rfl⟩

/-- The unknown letter in `b%{q` is blamed where it stands after `a%_`, and where that is known, the
rest is not looked at. -/
theorem scan_append_exact_unknown_letter :
    let a := ("a%_" : Text)
    let b := ("b%\x7bq" : Text)
    ¬HasLongCount ['d'] (a ++ b) ∧
      Raises ['d'] (a ++ b)
        { cause := .defect (.unknownLetter 'q'), value := some (a ++ b), position := 6 } ∧
      Raises ['d'] (b ++ a)
        { cause := .defect (.unknownLetter 'q'), value := some (b ++ a), position := 3 } := by
  intro a b
  have hletter : ∃ letter : Letter, letter.char ∈ [Character.scalar 'd'] :=
    ⟨.currentDomain, by decide⟩
  have hb : scan ['d'] b = .error (.defect (.unknownLetter 'q') 3) := by decide
  have hviable : ¬Viable ['d'] b := by
    rintro ⟨rest, pieces, hscan⟩
    cases hscan
  have hafter : scan ['d'] (a ++ b) = .error (.defect (.unknownLetter 'q') 6) := by decide
  have hbefore : scan ['d'] (b ++ a) = .error (.defect (.unknownLetter 'q') 3) := by decide
  have hcount := not_hasLongCount_of_scan hafter
  obtain ⟨haccepted, -⟩ := scan_append_exact ['d'] hletter a b hcount
  obtain ⟨-, hrejected⟩ :=
    scan_append_exact ['d'] hletter b a (not_hasLongCount_of_scan hbefore)
  obtain ⟨-, -, hfault⟩ := haccepted [.literal ("a " : Text)] (by decide)
  obtain ⟨e, he, hraises⟩ := hfault _ hb
  obtain ⟨e', he', hraises'⟩ := hrejected _ hb hviable
  cases he
  cases he'
  exact ⟨hcount, hraises, hraises'⟩

end SenderPolicy.MacroString
