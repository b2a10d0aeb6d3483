import Mathlib.Data.List.DropRight
import SenderPolicy.Proofs.MacroString.Transformation
import SenderPolicy.Proofs.Text.Parts

/-! Labels of transformed values.  What a transformation keeps of the parts of a value is a
selection, and selections compose.  Where dots are among the delimiters no part holds one, so the
labels of a transformed value are the parts that were selected, and transforming it again selects
among these. -/

namespace SenderPolicy.Transformation

/-- The last parts, or the first ones from right to left; all of them or as many as `limit` says. -/
def selection (reverse : Bool) (limit : Option Nat) (parts : List Text) : List Text :=
  let count := limit.getD parts.length
  if reverse then (parts.take count).reverse else parts.rtake count

variable {delimiters value : Text} {reverse : Bool} {limit : Option Nat} {parts : List Text}
  {n : Nat}

/-! ### Selections -/

theorem selection_none (reverse : Bool) (parts : List Text) :
    selection reverse none parts = if reverse then parts.reverse else parts := by
  simp [selection, List.rtake]

theorem selection_of_length_le (reverse : Bool) (h : parts.length ≤ n) :
    selection reverse (some n) parts = selection reverse none parts := by
  have hdrop : parts.length - n = 0 := Nat.sub_eq_zero_of_le h
  rw [selection_none]
  simp [selection, List.rtake, List.take_of_length_le h, hdrop]

theorem length_selection (reverse : Bool) (limit : Option Nat) (parts : List Text) :
    (selection reverse limit parts).length = min (limit.getD parts.length) parts.length := by
  unfold selection
  split
  · rw [List.length_reverse, List.length_take]
  · rw [List.rtake, List.length_drop]
    omega

theorem selection_ne_nil (hlimit : ∀ n ∈ limit, 1 ≤ n) (hparts : parts ≠ []) :
    selection reverse limit parts ≠ [] := by
  have hpos : 1 ≤ parts.length := List.length_pos_iff.2 hparts
  rw [← List.length_pos_iff, length_selection]
  cases limit with
  | none => exact le_min hpos hpos
  | some n => exact le_min (hlimit n rfl) hpos

theorem mem_of_mem_selection {part : Text} (h : part ∈ selection reverse limit parts) :
    part ∈ parts := by
  unfold selection at h
  split at h
  · exact List.mem_of_mem_take (List.mem_reverse.1 h)
  · exact List.mem_of_mem_drop h

/-- To select among the last parts is to select the last parts. -/
theorem selection_selection (m n : Nat) (parts : List Text) :
    selection false (some m) (selection false (some n) parts) =
      selection false (some (min m n)) parts := by
  show (parts.rtake n).rtake m = parts.rtake (min m n)
  simp only [List.rtake_eq_reverse_take_reverse, List.reverse_reverse, List.take_take]

/-- Parts are counted from the right in the order that is asked for. -/
theorem kept_ordered (hlimit : ∀ n ∈ limit, 1 ≤ n) (parts : List Text) :
    let m : Transformation := { delimiters, truncation := limit.map Int.ofNat, reverse }
    m.kept (m.ordered parts) = selection reverse limit parts := by
  intro m
  have hordered : m.ordered parts = selection reverse none parts := (selection_none ..).symm
  cases limit with
  | none => exact hordered
  | some n =>
    have hn : (0 : Int) < Int.ofNat n := Int.ofNat_lt.2 (hlimit n rfl)
    show lastItems (Int.ofNat n) (m.ordered parts) = _
    rw [lastItems, if_pos hn]
    show (m.ordered parts).rtake n = _
    rw [hordered, selection_none]
    cases reverse with
    | false => rfl
    | true =>
      show parts.reverse.rtake n = (parts.take n).reverse
      rw [List.rtake_eq_reverse_take_reverse, List.reverse_reverse]

/-! ### Transformed values -/

theorem transform?_eq_selection (h : delimiters ≠ []) (hcut : Cut delimiters value parts)
    (reverse : Bool) (hlimit : ∀ n ∈ limit, 1 ≤ n) :
    transform? { delimiters, truncation := limit.map Int.ofNat, reverse } value =
      .ok (Text.join ['.'] (selection reverse limit parts)) := by
  obtain rfl := cut_iff.1 hcut
  rw [← kept_ordered hlimit (value.splitOnP delimiters.contains)]
  exact transform?_plain (m := { delimiters, truncation := limit.map Int.ofNat, reverse }) h value

theorem splitOn_join_selection (hdot : Character.scalar '.' ∈ delimiters)
    (hcut : Cut delimiters value parts)
    (reverse : Bool) (hlimit : ∀ n ∈ limit, 1 ≤ n) :
    (Text.join ['.'] (selection reverse limit parts)).splitOn (.scalar '.') =
      selection reverse limit parts := by
  have hdots : ∀ part ∈ selection reverse limit parts, Character.scalar '.' ∉ part := by
    intro part hpart hmem
    have hpart := mem_of_mem_selection hpart
    rw [cut_iff.1 hcut] at hpart
    have hother := Text.not_of_mem_splitOnP hpart '.' hmem
    simp [hdot] at hother
  exact Text.splitOn_join hdots (selection_ne_nil hlimit hcut.ne_nil)

/-- A value that was transformed is transformed again by its labels. -/
theorem transform?_join_selection (hdot : Character.scalar '.' ∈ delimiters)
    (hcut : Cut delimiters value parts)
    (reverse : Bool) (hlimit : ∀ n ∈ limit, 1 ≤ n) (next : Bool) {nextLimit : Option Nat}
    (hnext : ∀ n ∈ nextLimit, 1 ≤ n) :
    transform? { truncation := nextLimit.map Int.ofNat, reverse := next }
        (Text.join ['.'] (selection reverse limit parts)) =
      .ok (Text.join ['.'] (selection next nextLimit (selection reverse limit parts))) := by
  refine transform?_eq_selection (List.cons_ne_nil (.scalar '.') []) ?_ next hnext
  rw [cut_iff, ← splitOn_eq_splitOnP, splitOn_join_selection hdot hcut reverse hlimit]

theorem transform?_twice {first second : Transformation} {text result : Text}
    (h : first.transform? value = .ok text) (hagain : second.transform? text = .ok result) :
    (first.transform? value).bind second.transform? = .ok result := by
  rw [h]
  exact hagain

/-- A value that is neither reversed nor truncated has dots for its delimiters, and one that is has
the parts that are selected.  If dots are among the delimiters, these are the labels of the
transformed value, so that truncations compose to the smaller one, and reversals cancel. -/
theorem transform?_algebra (delimiters : Text) (h : delimiters ≠ []) (value : Text) :
    ∃ parts, Cut delimiters value parts ∧
      transform? { delimiters } value =
        .ok (value.map fun c => if c ∈ delimiters then .scalar '.' else c) ∧
      (∀ n : Nat, 1 ≤ n →
        transform? { delimiters, truncation := some n, reverse := true } value =
          .ok (Text.join ['.'] (parts.take (min n parts.length)).reverse)) ∧
      (∀ (reverse : Bool) (n : Nat), 1 ≤ n → parts.length ≤ n →
        transform? { delimiters, truncation := some n, reverse } value =
          transform? { delimiters, reverse } value) ∧
      (Character.scalar '.' ∈ delimiters →
        (∀ (reverse : Bool) (limit : Option Nat), (∀ n ∈ limit, 1 ≤ n) →
          ∃ text,
            transform? { delimiters, truncation := limit.map Int.ofNat, reverse } value =
              .ok text ∧
            text.splitOn (.scalar '.') = selection reverse limit parts ∧
            (text.splitOn (.scalar '.')).length = min (limit.getD parts.length) parts.length) ∧
        (∀ m n : Nat, 1 ≤ m → 1 ≤ n →
          (transform? { delimiters, truncation := some n } value).bind
              (transform? { truncation := some m }) =
            transform? { delimiters, truncation := some (min m n : Nat) } value) ∧
        (transform? { delimiters, reverse := true } value).bind (transform? { reverse := true }) =
          transform? { delimiters } value) := by
  obtain ⟨parts, hcut⟩ := exists_cut delimiters value
  have hnone : ∀ n ∈ (none : Option Nat), 1 ≤ n := nofun
  have hsome {n : Nat} (hn : 1 ≤ n) : ∀ k ∈ some n, 1 ≤ k := by
    rintro _ ⟨⟩
    exact hn
  have htransform (reverse : Bool) {limit : Option Nat} (hlimit : ∀ n ∈ limit, 1 ≤ n) :=
    transform?_eq_selection h hcut reverse hlimit
  refine ⟨parts, hcut, ?_, ?_, ?_, fun hdot => ⟨?_, ?_, ?_⟩⟩
  · refine (htransform false hnone).trans ?_
    rw [selection_none, cut_iff.1 hcut]
    simp [Text.join_splitOnP]
  · intro n hn
    rw [← List.take_eq_take_min]
    exact htransform true (hsome hn)
  · intro reverse n hn hlength
    refine (htransform reverse (hsome hn)).trans ?_
    rw [selection_of_length_le reverse hlength]
    exact (htransform reverse hnone).symm
  · intro reverse limit hlimit
    have hlabels := splitOn_join_selection hdot hcut reverse hlimit
    refine ⟨_, htransform reverse hlimit, hlabels, ?_⟩
    rw [hlabels, length_selection]
  · intro m n hm hn
    have hagain := transform?_join_selection hdot hcut false (hsome hn) false (hsome hm)
    rw [selection_selection] at hagain
    have htwice := transform?_twice (htransform false (hsome hn)) hagain
    exact htwice.trans (htransform false (hsome (le_min hm hn))).symm
  · have hagain := transform?_join_selection hdot hcut true hnone true hnone
    have hparts : selection true none (selection true none parts) = selection false none parts := by
      simp [selection_none]
    rw [hparts] at hagain
    have htwice := transform?_twice (htransform true hnone) hagain
    exact htwice.trans (htransform false hnone).symm

/-- Of the three labels two are kept, and of these one, or they are put in order again. -/
theorem transform?_algebra_slash :
    let value : Text := "a/b.c"
    let delimiters : Text := "./"
    delimiters ≠ [] ∧ Character.scalar '.' ∈ delimiters ∧
      transform? { delimiters } value = .ok "a.b.c" ∧
      transform? { delimiters, truncation := some 2, reverse := true } value =
        .ok "b.a" ∧
      (transform? { delimiters, truncation := some 2 } value).bind
          (transform? { truncation := some 1 }) = .ok "c" ∧
      (transform? { delimiters, reverse := true } value).bind (transform? { reverse := true }) =
        .ok "a.b.c" := by
  intro value delimiters
  have hdelimiters : delimiters ≠ [] := by decide
  have hdot : Character.scalar '.' ∈ delimiters := by decide
  obtain ⟨parts, hcut, hplain, hreverse, -, hlabels⟩ :=
    transform?_algebra delimiters hdelimiters value
  obtain ⟨-, htruncations, hreversals⟩ := hlabels hdot
  have hparts : parts = ["a", "b", "c"] := cut_iff.1 hcut
  have htwo := hreverse 2 (by decide)
  rw [hparts] at htwo
  refine ⟨hdelimiters, hdot, hplain.trans (by decide), htwo.trans (by decide), ?_, ?_⟩
  · exact (htruncations 1 2 le_rfl (by decide)).trans (by decide)
  · exact hreversals.trans (hplain.trans (by decide))

end SenderPolicy.Transformation
