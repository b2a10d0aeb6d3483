import Mathlib.Data.List.Count
import Mathlib.Data.List.GetD
import Mathlib.Data.List.Range
import Mathlib.Data.List.TakeWhile
import SenderPolicy.Proofs.Address.Written

/-! Reading the compressed form of IPv6 addresses.  The gap stands for as many zero groups as are
not written, wherever it is, so the form that is written is read as the address itself, and no two
addresses share a form. -/

namespace SenderPolicy

namespace Groups

/-! ### The gap -/

theorem take_eq_replicate {groups : List UInt16} {n : Nat} (h : n ≤ zeros groups) :
    groups.take n = List.replicate n 0 := by
  have hzeros : groups.take n = (groups.takeWhile (· == 0)).take n := by
    obtain ⟨rest, hrest⟩ := List.takeWhile_prefix (l := groups) (· == 0)
    conv_lhs => rw [← hrest]
    exact List.take_append_of_le_length h
  have hlength : (groups.take n).length = n := by
    rw [hzeros, List.length_take]
    exact Nat.min_eq_left h
  refine List.eq_replicate_iff.2 ⟨hlength, ?_⟩
  intro g hg
  rw [hzeros] at hg
  have hzero := List.mem_takeWhile_imp (List.mem_of_mem_take hg)
  exact beq_iff_eq.1 hzero

/-- There are zeros where the longest run of zeros is said to be. -/
theorem longestZeros_le_zeros (groups : List UInt16) :
    (longestZeros groups).2 ≤ zeros (groups.drop (longestZeros groups).1) := by
  unfold longestZeros
  refine List.foldlRecOn (motive := fun best : Nat × Nat => best.2 ≤ zeros (groups.drop best.1))
    _ _ (Nat.zero_le _) ?_
  intro best hbest i _
  split
  · exact Nat.le_refl _
  · exact hbest

/-- The groups before the gap, the zeros for which it stands, and the groups after it. -/
theorem eq_append_replicate_append (groups : List UInt16) :
    groups = groups.take (longestZeros groups).1 ++
      (List.replicate (longestZeros groups).2 0 ++
        groups.drop ((longestZeros groups).1 + (longestZeros groups).2)) := by
  rw [← take_eq_replicate (longestZeros_le_zeros groups), ← List.drop_drop, List.take_append_drop,
    List.take_append_drop]

theorem toText_eq (g : Groups) :
    g.toText = colonHex g.toList ∨
      ∃ high length low, g.toList = high ++ (List.replicate length 0 ++ low) ∧ 1 < length ∧
        g.toText = colonHex high ++ ("::" : Text) ++ colonHex low := by
  by_cases h : (longestZeros g.toList).2 ≤ 1
  · refine .inl ?_
    simp only [toText, h, if_true]
  · refine .inr ⟨_, _, _, eq_append_replicate_append g.toList, by omega, ?_⟩
    simp only [toText, h, if_false]

end Groups

namespace Address

/-! ### Parts beside the gap -/

/-- The parts of some groups that are written before or after the gap: one empty part, if there are
no groups. -/
def sideParts (groups : List UInt16) : List Text :=
  if groups = [] then [[]] else groups.map fun g => Text.ofHex 1 g.toNat

theorem splitOn_colonHex_eq (groups : List UInt16) :
    (Groups.colonHex groups).splitOn (.scalar ':') = sideParts groups := by
  unfold sideParts
  split
  · next h =>
    rw [h]
    rfl
  · next h => exact splitOn_hexGroups 1 h

theorem isHexDigit_of_mem_sideParts {groups : List UInt16} :
    ∀ part ∈ sideParts groups, ∀ d ∈ part, isHexDigit d := by
  intro part hpart d hd
  unfold sideParts at hpart
  split at hpart
  · rw [List.mem_singleton.1 hpart] at hd
    cases hd
  · obtain ⟨g, -, rfl⟩ := List.mem_map.1 hpart
    exact isHexDigit_ofHex _ _ d hd

theorem sideParts_ne_nil (groups : List UInt16) : sideParts groups ≠ [] := by
  unfold sideParts
  split
  · simp
  · simpa

theorem length_sideParts (groups : List UInt16) :
    (sideParts groups).length = max 1 groups.length := by
  unfold sideParts
  split
  · next h => simp [h]
  · next h =>
    have := List.length_pos_iff.2 h
    rw [List.length_map]
    omega

/-- Only the one part of no groups is empty. -/
theorem length_sideParts_of_nil_mem {groups : List UInt16} (h : [] ∈ sideParts groups) :
    (sideParts groups).length = 1 := by
  unfold sideParts at h ⊢
  split at h
  · next hnil => simp [hnil]
  · obtain ⟨g, -, hg⟩ := List.mem_map.1 h
    exact absurd hg (ofHex_ne_nil _ _)

theorem filter_sideParts (groups : List UInt16) :
    (sideParts groups).filter (· != []) = groups.map fun g => Text.ofHex 1 g.toNat := by
  unfold sideParts
  split
  · next h =>
    rw [h]
    rfl
  · refine List.filter_eq_self.2 ?_
    intro part hpart
    obtain ⟨g, -, rfl⟩ := List.mem_map.1 hpart
    simpa using ofHex_ne_nil _ _

theorem ne_nil_of_getElem? {groups : List UInt16} {i : Nat} {part : Text}
    (hpart : (sideParts groups)[i]? = some part) (hlength : (sideParts groups).length ≠ 1) :
    part ≠ [] := by
  rintro rfl
  exact hlength (length_sideParts_of_nil_mem (List.mem_of_getElem? hpart))

/-- The one gap is the empty part between the two sides. -/
theorem gaps_sideParts (high low : List UInt16) :
    gaps (sideParts high ++ [] :: sideParts low) = [(sideParts high).length] := by
  have hhigh := List.length_pos_iff.2 (sideParts_ne_nil high)
  have hlow := List.length_pos_iff.2 (sideParts_ne_nil low)
  have hgap : ∀ i ∈ List.range (sideParts high ++ [] :: sideParts low).length,
      (decide (0 < i) && decide (i + 1 < (sideParts high ++ [] :: sideParts low).length) &&
        (sideParts high ++ [] :: sideParts low)[i]? == some []) =
      (i == (sideParts high).length) := by
    intro i hi
    rw [List.mem_range, List.length_append, List.length_cons] at hi
    rw [List.length_append, List.length_cons]
    rcases Nat.lt_trichotomy i (sideParts high).length with hlt | rfl | hgt
    · have hne : (i == (sideParts high).length) = false := by simp; omega
      rw [hne, List.getElem?_append_left hlt]
      by_cases hone : (sideParts high).length = 1
      · have : ¬ 0 < i := by omega
        simp [this]
      · have := ne_nil_of_getElem? (List.getElem?_eq_getElem hlt) hone
        simp [hlt, this]
    · rw [List.getElem?_append_right (Nat.le_refl _), Nat.sub_self]
      simp
      omega
    · obtain ⟨j, rfl⟩ := Nat.exists_eq_add_of_lt hgt
      have hne : ((sideParts high).length + j + 1 == (sideParts high).length) = false := by
        simp
        omega
      rw [hne, List.getElem?_append_right (by omega),
        show (sideParts high).length + j + 1 - (sideParts high).length = j + 1 by omega,
        List.getElem?_cons_succ]
      by_cases hone : (sideParts low).length = 1
      · have : ¬ (sideParts high).length + j + 1 + 1 <
            (sideParts high).length + ((sideParts low).length + 1) := by omega
        simp [this]
      · have hlt : j < (sideParts low).length := by omega
        have := ne_nil_of_getElem? (List.getElem?_eq_getElem hlt) hone
        simp [hlt, this]
  rw [gaps, List.filter_congr hgap, List.filter_beq, List.count_range, if_pos (by simp)]
  rfl

theorem halves_sideParts {high low : List UInt16} (h : high.length + low.length ≤ 7) :
    halves (sideParts high ++ [] :: sideParts low) =
      .ok (high.map fun g => Text.ofHex 1 g.toNat, low.map fun g => Text.ofHex 1 g.toNat) := by
  have hhead : ¬ ((sideParts high).head? = some [] ∧ (sideParts high).length ≠ 1) :=
    fun ⟨hnil, hlength⟩ => hlength (length_sideParts_of_nil_mem (List.mem_of_mem_head? hnil))
  have hlast : ¬ ((sideParts low).getLast? = some [] ∧ (sideParts low).length ≠ 1) :=
    fun ⟨hnil, hlength⟩ => hlength (length_sideParts_of_nil_mem (List.mem_of_getLast? hnil))
  have hafter : (sideParts high ++ [] :: sideParts low).drop ((sideParts high).length + 1) =
      sideParts low := by
    rw [List.drop_append, List.drop_eq_nil_of_le (by omega), Nat.add_sub_cancel_left]
    rfl
  unfold halves
  rw [gaps_sideParts]
  simp only [List.take_left, hafter, hhead, hlast, if_false, filter_sideParts, List.length_map]
  rw [if_neg (by omega)]

/-- Groups from both ends, with zeros between them. -/
theorem fill_eq {g : Groups} {high low : List UInt16} {length : Nat}
    (h : g.toList = high ++ (List.replicate length 0 ++ low)) : fill high low = g := by
  have hlength : high.length + (length + low.length) = 8 := by
    have := congrArg List.length h
    simpa using this.symm
  refine Vector.ext ?_
  intro i hi
  have hfill : (fill high low)[i] = high.getD i (low.reverse.getD (7 - i) 0) :=
    Vector.getElem_ofFn hi
  have hget : g.toList[i]? = some g[i] := by simp [hi]
  rw [hfill, ← Option.some_inj, ← hget, h]
  by_cases hhigh : i < high.length
  · rw [List.getElem?_append_left hhigh, List.getD_eq_getElem _ _ hhigh,
      List.getElem?_eq_getElem hhigh]
  · rw [List.getElem?_append_right (by omega), List.getD_eq_default _ _ (by omega)]
    by_cases hzero : i - high.length < length
    · rw [List.getElem?_append_left (by simpa using hzero), List.getElem?_replicate, if_pos hzero,
        List.getD_eq_default _ _ (by simp; omega)]
    · have hlow : low.length - 1 - (7 - i) = i - high.length - length := by omega
      have hbound : i - high.length - length < low.length := by omega
      rw [List.getElem?_append_right (by simp; omega), List.length_replicate,
        List.getD_reverse _ (by omega), hlow, List.getD_eq_getElem _ _ hbound,
        List.getElem?_eq_getElem hbound]

theorem readGroups_toText (g : Groups) : readGroups g.toText = .ok g := by
  rcases Groups.toText_eq g with htext | ⟨high, length, low, hgroups, hlength, htext⟩
  · rw [htext, colonHex_eq, readGroups_hexGroups (by decide)]
  · have hlengths : high.length + (length + low.length) = 8 := by
      have := congrArg List.length hgroups
      simpa using this.symm
    have hsplit : g.toText.splitOn (.scalar ':') = sideParts high ++ [] :: sideParts low := by
      have hcolons : g.toText =
          Groups.colonHex high ++ .scalar ':' :: ([] ++ .scalar ':' :: Groups.colonHex low) := by
        rw [htext, List.append_assoc]
        rfl
      rw [hcolons, List.splitOn_append_cons_self, List.splitOn_append_cons_self,
        splitOn_colonHex_eq, splitOn_colonHex_eq]
      rfl
    have hquad : expandQuad (sideParts high ++ [] :: sideParts low) =
        .ok (sideParts high ++ [] :: sideParts low) := by
      refine expandQuad_of_not_mem ?_
      intro part hpart hdot
      rw [List.mem_append, List.mem_cons] at hpart
      rcases hpart with hpart | rfl | hpart
      · exact absurd (isHexDigit_of_mem_sideParts part hpart _ hdot) (by decide)
      · cases hdot
      · exact absurd (isHexDigit_of_mem_sideParts part hpart _ hdot) (by decide)
    have hcount : (sideParts high ++ [] :: sideParts low).length =
        max 1 high.length + (max 1 low.length + 1) := by
      rw [List.length_append, List.length_cons, length_sideParts, length_sideParts]
    unfold readGroups
    simp only [hsplit, hquad, hcount, bind, Except.bind]
    rw [if_neg (by omega), if_neg (by omega), halves_sideParts (by omega)]
    simp only [mapM_readGroup (show 1 ≤ 4 by decide), fill_eq hgroups]

/-! ### Texts of addresses -/

theorem not_mem_groupsToText {c : Character} (g : Groups) (hc : isHexDigit c = false)
    (hne : c ≠ ':') :
    c ∉ g.toText := by
  rcases Groups.toText_eq g with htext | ⟨high, length, low, -, -, htext⟩
  · rw [htext]
    exact not_mem_hexGroups _ _ hc hne
  · rw [htext]
    simp [colonHex_eq, not_mem_hexGroups, hc, hne]

theorem dot_mem_quadToText (q : Quad) : Character.scalar '.' ∈ q.toText := by
  by_contra h
  have hread := readQuad_toText q
  rw [readQuad_of_not_mem h] at hread
  cases hread

theorem ofText?_groupsToText (g : Groups) : ofText? g.toText = some (.v6 g none) :=
  ofText?_of_readGroups (not_mem_groupsToText _ (by decide) (by decide))
    (not_mem_groupsToText _ (by decide) (by decide))
    (not_mem_groupsToText _ (by decide) (by decide))
    (readGroups_toText g)

/-- Whether an address names a network of the host. -/
def isScoped : Address → Bool
  | .v6 _ (some _) => true
  | _ => false

/-- The text of an address without a scope reads as that address. -/
theorem ofText?_toText_of_unscoped {a : Address} (h : a.isScoped = false) :
    ofText? a.toText = some a := by
  match a with
  | .v4 q => exact ofText?_toText q
  | .v6 g none => exact ofText?_groupsToText g
  | .v6 g (some scope) => cases h

/-- Addresses without a scope are told by their texts. -/
theorem toText_inj {a b : Address} (ha : a.isScoped = false) (hb : b.isScoped = false)
    (h : a.toText = b.toText) : a = b := by
  have hread := ofText?_toText_of_unscoped ha
  rw [h, ofText?_toText_of_unscoped hb] at hread
  exact (Option.some.inj hread).symm

end Address

end SenderPolicy
