import SenderPolicy.Proofs.MacroString.Scanning

/-! How far scanning gets.  `Reached` follows the automaton character by character up to where it
stands, and `Halts` says that it gets no further there.  Every text that is not scanned halts after
some front of it; what follows that character has no part in the fault. -/

namespace SenderPolicy.MacroString

variable {letters : List Character} {mode : Mode} {front text : Text} {fault : ScanFault}

/-- The automaton takes `front` without a fault, and then stands at `mode`. -/
inductive Reached (letters : List Character) : Mode → Text → Prop
  | start : Reached letters .outside []
  | step {mode next : Mode} {front : Text} {c : Character} {yielded : Yield} :
      Reached letters mode front →
      MacroString.step letters mode front.length c = .ok (yielded, next) →
      Reached letters next (front ++ [c])

/-- The automaton has a fault before it has taken the first character of a text, or at its end. -/
inductive Halts (letters : List Character) (mode : Mode) (offset : Nat) (fault : ScanFault) :
    Text → Prop
  | finish : MacroString.finish mode offset = .error fault → Halts letters mode offset fault []
  | step {c : Character} {text : Text} :
      MacroString.step letters mode offset c = .error fault →
      Halts letters mode offset fault (c :: text)

/-- A front consists of whole items and of what has been read of the next one. -/
theorem Reached.exists_items (h : Reached letters mode front) :
    ∃ (items : List (Item letters)) (read : Text),
      front = written items ++ read ∧ Reading letters mode read := by
  induction h with
  | start => exact ⟨[], [], rfl, .outside⟩
  | @step mode next front c yielded h hs ih =>
    obtain ⟨items, read, rfl, hreading⟩ := ih
    have htaken := hreading.step hs
    cases yielded with
    | none => exact ⟨items, read ++ [c], by simp, htaken⟩
    | some piece =>
      obtain ⟨rfl, item, hitem, -⟩ := htaken
      refine ⟨items ++ [item], [], ?_, .outside⟩
      simp [written, hitem]

/-- After a front, the automaton yields more than where it stands, by what it has yielded so far. -/
theorem Reached.exists_yields (h : Reached letters mode front) :
    ∃ pieces, ∀ rest, yields letters .outside 0 (front ++ rest) =
      (yields letters mode front.length rest).map (pieces ++ ·) := by
  induction h with
  | start =>
    refine ⟨[], fun rest => ?_⟩
    show yields letters .outside 0 rest = _
    cases yields letters .outside 0 rest <;> rfl
  | @step mode next front c yielded h hs ih =>
    obtain ⟨pieces, hpieces⟩ := ih
    refine ⟨pieces ++ yielded.toList, fun rest => ?_⟩
    rw [List.append_assoc, List.singleton_append, hpieces, yields_of_step hs, List.length_append]
    show _ = (yields letters next (front.length + 1) rest).map _
    cases yields letters next (front.length + 1) rest with
    | error fault => rfl
    | ok later => exact congrArg Except.ok (List.append_assoc pieces yielded.toList later).symm

theorem Halts.yields_eq {offset : Nat} (h : Halts letters mode offset fault text) :
    yields letters mode offset text = .error fault := by
  cases h with
  | finish hf => rw [yields, hf]; rfl
  | step hs => rw [yields, hs]; rfl

theorem Reached.scan_of_halts (h : Reached letters mode front)
    (hh : Halts letters mode front.length fault text) :
    scan letters (front ++ text) = .error fault := by
  obtain ⟨pieces, hpieces⟩ := h.exists_yields
  rw [scan, hpieces, hh.yields_eq]
  rfl

theorem Reached.exists_halts (h : Reached letters mode front)
    (hy : yields letters mode front.length text = .error fault) :
    ∃ last more rest, text = more ++ rest ∧ Reached letters last (front ++ more) ∧
      Halts letters last (front ++ more).length fault rest := by
  induction text generalizing mode front with
  | nil =>
    refine ⟨mode, [], [], rfl, by simpa using h, ?_⟩
    rw [List.append_nil]
    cases hf : finish mode front.length with
    | error other =>
      rw [yields, hf] at hy
      obtain rfl : other = fault := Except.error.inj hy
      exact .finish hf
    | ok done =>
      rw [yields, hf] at hy
      cases hy
  | cons c text ih =>
    cases hs : MacroString.step letters mode front.length c with
    | error other =>
      rw [yields, hs] at hy
      obtain rfl : other = fault := Except.error.inj hy
      exact ⟨mode, [], c :: text, rfl, by simpa using h, by simpa using .step hs⟩
    | ok result =>
      obtain ⟨yielded, next⟩ := result
      have hlater : yields letters next (front ++ [c]).length text = .error fault := by
        rw [yields_of_step hs] at hy
        rw [List.length_append]
        show yields letters next (front.length + 1) text = .error fault
        cases hl : yields letters next (front.length + 1) text with
        | error other => rw [hl] at hy; exact hy
        | ok later => rw [hl] at hy; cases hy
      obtain ⟨last, more, rest, rfl, hreached, hhalts⟩ := ih (h.step hs) hlater
      rw [List.append_assoc] at hreached hhalts
      exact ⟨last, c :: more, rest, rfl, hreached, hhalts⟩

/-- A text that is not scanned halts after some front of it. -/
theorem exists_halts_of_scan {value : Text} (h : scan letters value = .error fault) :
    ∃ mode front rest, value = front ++ rest ∧ Reached letters mode front ∧
      Halts letters mode front.length fault rest := by
  cases hy : yields letters .outside 0 value with
  | error other =>
    rw [scan, hy] at h
    obtain rfl : other = fault := Except.error.inj h
    obtain ⟨last, more, rest, rfl, hreached, hhalts⟩ := Reached.start.exists_halts hy
    exact ⟨last, more, rest, rfl, hreached, hhalts⟩
  | ok yielded =>
    rw [scan, hy] at h
    cases h

end SenderPolicy.MacroString
