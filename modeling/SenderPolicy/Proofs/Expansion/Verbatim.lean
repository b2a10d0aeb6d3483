import SenderPolicy.Proofs.Expansion.Effects

/-! Text that stands for itself.  A text in which every percent sign is doubled is a macro string
that holds no macro, and it stands for the text as it was.  So any text can be put anywhere in a
macro string, and what stands before it and after it is expanded as it is without it. -/

namespace SenderPolicy

open SenderPolicy.Action

namespace MacroString

variable {letters : List Character}

/-- A text with every percent sign twice. -/
def doublePercents (w : Text) : Text := w.flatMap fun c => if c = .scalar '%' then ['%', '%'] else
    [c]

theorem doublePercents_of_not_mem {w : Text} (h : Character.scalar '%' ∉ w) :
    doublePercents w = w := by
  induction w with
  | nil => rfl
  | cons c w ih =>
    obtain ⟨hc, hw⟩ : Character.scalar '%' ≠ c ∧ Character.scalar '%' ∉ w := by simpa using h
    change (if c = .scalar '%' then ("%%" : Text) else [c]) ++ doublePercents w = c :: w
    rw [if_neg hc.symm, ih hw]
    rfl

/-- The item by which a character stands for itself. -/
def Item.ofChar (c : Character) : Item letters :=
  if h : c = '%' then .escape .percent else .plain c h

theorem Item.ofChar_spec (c : Character) :
    (ofChar c : Item letters).text = (if c = .scalar '%' then ("%%" : Text) else [c]) ∧
      (ofChar c : Item letters).isLiteral = true ∧ (ofChar c : Item letters).literal = [c] := by
  by_cases hc : c = '%'
  · subst hc
    have hitem : (ofChar '%' : Item letters) = .escape .percent := dif_pos rfl
    rw [hitem]
    exact ⟨rfl, rfl, rfl⟩
  · have hitem : (ofChar c : Item letters) = .plain c hc := dif_neg hc
    rw [hitem, if_neg hc]
    exact ⟨rfl, rfl, rfl⟩

theorem written_map_ofChar (w : Text) :
    written (w.map (@Item.ofChar letters)) = doublePercents w := by
  rw [written, List.flatMap_map]
  exact congrArg (w.flatMap ·) (funext fun c => (Item.ofChar_spec c).1)

/-- The one piece for which a text stands by itself; none, if it is empty. -/
def literalPieces (w : Text) : List Piece := if w = [] then [] else [.literal w]

theorem fuse_map_ofChar (w : Text) :
    fuse ((w.map (@Item.ofChar letters)).map Item.piece) = literalPieces w := by
  by_cases hw : w = []
  · subst hw
    rfl
  · have hne : w.map (@Item.ofChar letters) ≠ [] := by simpa using hw
    have hrun : ∀ item ∈ w.map (@Item.ofChar letters), item.isLiteral = true := by
      intro item hitem
      obtain ⟨c, -, rfl⟩ := List.mem_map.1 hitem
      exact (Item.ofChar_spec c).2.1
    have hliteral : (w.map (@Item.ofChar letters)).flatMap Item.literal = w := by
      rw [List.flatMap_map, funext fun c => (@Item.ofChar_spec letters c).2.2]
      exact List.flatMap_singleton' w
    have hnil (text : Text) (later : List Piece) : ([] : List Piece) ≠ .literal text :: later :=
      (List.cons_ne_nil _ _).symm
    rw [fuse, foldr_addPiece_run hne hrun hnil, hliteral, literalPieces, if_neg hw]

/-- A text with every percent sign twice is scanned to the text as it was, whichever letters are
allowed. -/
theorem scan_doublePercents (letters : List Character) (w : Text) :
    scan letters (doublePercents w) = .ok (literalPieces w) := by
  rw [← @written_map_ofChar letters, scan_written, fuse_map_ofChar]

end MacroString

namespace Expander

open MacroString (doublePercents literalPieces)

variable {x : Expander} {session : Session} {letters : List Character} {a b : Text}
  {pieces others : List Piece}

theorem expandPieces_literalPieces (w : Text) :
    x.expandPieces session (literalPieces w) = pure w := by
  by_cases hw : w = []
  · subst hw
    rfl
  · rw [literalPieces, if_neg hw, expandPieces_literal, expandPieces_nil, pure_bind,
      List.append_nil]

theorem expand_doublePercents (w : Text) :
    x.expand session (doublePercents w) letters = pure w := by
  rw [expand_of_scan (MacroString.scan_doublePercents letters w), expandPieces_literalPieces]

/-- A text that stands for itself comes between what the macro strings around it expand to. -/
theorem expand_around (ha : MacroString.scan letters a = .ok pieces)
    (hb : MacroString.scan letters b = .ok others) (w : Text) :
    x.expand session (a ++ doublePercents w ++ b) letters = do
      let first ← x.expand session a letters
      let second ← x.expand session b letters
      return first ++ w ++ second := by
  have hw := MacroString.scan_doublePercents letters w
  have hrest : MacroString.scan letters (doublePercents w ++ b) =
      .ok (MacroString.fuse (literalPieces w ++ others)) := by
    rw [MacroString.scan_append hw, hb]
    rfl
  rw [List.append_assoc, expand_append_eq ha hrest, expand_append_eq hw hb,
    expand_doublePercents]
  simp only [pure_bind, bind_assoc, List.append_assoc]

/-- Any text `w` stands for itself once its percent signs are doubled, wherever it is put.  It
changes nothing about the lookups, the cache and the log of the macro strings before and after it,
nor about their failure, and comes between their texts as it was. -/
theorem expand_verbatim (x : Expander) (session : Session) (letters : List Character) (w : Text) :
    MacroString.scan letters (doublePercents w) = .ok (if w = [] then [] else [.literal w]) ∧
    ∀ a b : Text, (∃ pieces, MacroString.scan letters a = .ok pieces) →
      (∃ others, MacroString.scan letters b = .ok others) → ∀ (e : Environment) (s : State),
      let within := exec (x.expand session (a ++ doublePercents w ++ b) letters) e s
      let without := exec (x.expand session (a ++ b) letters) e s
      within.2 = without.2 ∧
      (∀ failure, within.1 = .error failure ↔ without.1 = .error failure) ∧
      (∀ text, within.1 = .ok text ↔ ∃ first second after last,
        exec (x.expand session a letters) e s = (.ok first, after) ∧
        exec (x.expand session b letters) e after = (.ok second, last) ∧
        text = first ++ w ++ second) ∧
      ∀ text, without.1 = .ok text ↔ ∃ first second after last,
        exec (x.expand session a letters) e s = (.ok first, after) ∧
        exec (x.expand session b letters) e after = (.ok second, last) ∧
        text = first ++ second := by
  refine ⟨MacroString.scan_doublePercents letters w, ?_⟩
  rintro a b ⟨pieces, ha⟩ ⟨others, hb⟩ e s within without
  have hwithin : within = _ := congrArg (exec · e s) (expand_around ha hb w)
  have hwithout : without = _ := congrArg (exec · e s) (expand_append_eq ha hb)
  rw [hwithin, hwithout]
  simp only [exec_bind, exec_pure]
  rcases exec (x.expand session a letters) e s with ⟨failure | first, after⟩
  · simp
  · simp only
    rcases hlast : exec (x.expand session b letters) e after with ⟨failure | second, last⟩
    · simp [hlast]
    · simp [hlast, eq_comm]

/-- A text that looks like a macro and an escape stands between two validated names, of which the
second one is found in the cache as it is without that text. -/
theorem expand_verbatim_mail :
    let session := mailSession (.v4 #v[192, 0, 2, 1])
    let a : Text := "%\x7bp\x7d%_"
    let b : Text := "%\x7bp1\x7d"
    let w : Text := "%\x7bi\x7d%%-%"
    let value : Text := a ++ doublePercents w ++ b
    doublePercents w = ("%%\x7bi\x7d%%%%-%%" : Text) ∧
      MacroString.scan Letter.allChars (doublePercents w) = .ok [.literal w] ∧
      (exec (mailExpander.expand session value Letter.allChars) mailEnvironment {}).1 =
        .ok ("mail.example %\x7bi\x7d%%-%example" : Text) ∧
      (exec (mailExpander.expand session value Letter.allChars) mailEnvironment {}).2 =
        (exec (mailExpander.expand session (a ++ b) Letter.allChars) mailEnvironment {}).2 := by
  intro session a b w value
  have ha : ∃ pieces, MacroString.scan Letter.allChars a = .ok pieces := ⟨_, rfl⟩
  have hb : ∃ others, MacroString.scan Letter.allChars b = .ok others := ⟨_, rfl⟩
  obtain ⟨hscan, haround⟩ := expand_verbatim mailExpander session Letter.allChars w
  obtain ⟨hstate, -, htext, -⟩ := haround a b ha hb mailEnvironment {}
  have hfirst : (exec (mailExpander.expand session a Letter.allChars) mailEnvironment {}).1 =
      .ok ("mail.example " : Text) := by decide +kernel
  have hsecond : (exec (mailExpander.expand session b Letter.allChars) mailEnvironment
      (exec (mailExpander.expand session a Letter.allChars) mailEnvironment {}).2).1 =
      .ok ("example" : Text) := by decide +kernel
  exact ⟨rfl, hscan, (htext _).2 ⟨_, _, _, _, run_eq_ok hfirst, run_eq_ok hsecond, rfl⟩,
    hstate⟩

end Expander

end SenderPolicy
