import SenderPolicy.Proofs.Address.Client

/-! Addresses that name a network of the host.  They have a percent sign in their texts, which
nothing that reads groups or octets takes, so they have no dotted form; all others have one. -/

namespace SenderPolicy

namespace Address

variable {client : Address} {t : Text} {parts : List Text}

theorem isHexDigit_of_mapM_readGroup {groups : List UInt16}
    (h : parts.mapM readGroup = .ok groups) :
    ∀ part ∈ parts, ∀ c ∈ part, isHexDigit c = true := by
  induction parts generalizing groups with
  | nil => nofun
  | cons part parts ih =>
    rw [List.mapM_cons] at h
    cases hgroup : readGroup part with
    | error fault => rw [hgroup] at h; cases h
    | ok group =>
      cases hgroups : parts.mapM readGroup with
      | error fault => rw [hgroup, hgroups] at h; cases h
      | ok groups =>
        have hhex : ∀ c ∈ part, isHexDigit c = true := by
          unfold readGroup at hgroup
          split at hgroup
          · cases hgroup
          · next hall => simpa using hall
        exact List.forall_mem_cons.2 ⟨hhex, ih hgroups⟩

theorem exists_of_bind_eq_ok {ε α β : Type} {x : Except ε α} {f : α → Except ε β} {b : β}
    (h : x >>= f = .ok b) : ∃ a, x = .ok a ∧ f a = .ok b := by
  cases x with
  | error fault => cases h
  | ok a => exact ⟨a, rfl, h⟩

/-- Nothing but empty parts are left out. -/
theorem mem_of_halves {high low : List Text} (h : halves parts = .ok (high, low)) {part : Text}
    (hmem : part ∈ parts) (hne : part ≠ []) : part ∈ high ∨ part ∈ low := by
  unfold halves at h
  split at h
  · cases h
  · next gap hgaps =>
    dsimp only at h
    split at h
    · cases h
    · split at h
      · cases h
      · split at h
        · cases h
        · obtain ⟨rfl, rfl⟩ := Prod.mk.inj (Except.ok.inj h)
          have hgap : parts[gap]? = some [] := by
            have hin : gap ∈ gaps parts := by rw [hgaps]; exact List.mem_cons_self
            have := (List.mem_filter.1 hin).2
            simp only [Bool.and_eq_true, beq_iff_eq] at this
            exact this.2
          simp only [List.mem_filter, bne_iff_ne]
          rw [← List.take_append_drop gap parts, List.mem_append] at hmem
          rcases hmem with hmem | hmem
          · exact .inl ⟨hmem, hne⟩
          · rw [List.drop_eq_getElem?_toList_append, hgap] at hmem
            exact .inr ⟨(List.mem_cons.1 hmem).resolve_left hne, hne⟩
  · split at h
    · cases h
    · split at h
      · cases h
      · split at h
        · cases h
        · obtain ⟨rfl, rfl⟩ := Prod.mk.inj (Except.ok.inj h)
          exact .inl hmem

theorem percent_not_mem_of_readQuad {q : Quad} (h : readQuad t = .ok q) :
    Character.scalar '%' ∉ t := fun hmem =>
  (isDigit_or_eq_dot_of_readQuad h '%' hmem).elim (absurd · (by decide)) (absurd · (by decide))

/-- A part that is no empty one is read, as a group or as an IPv4 address. -/
theorem percent_mem_of_expandQuad {read : List Text} (h : expandQuad parts = .ok read)
    {part : Text} (hpart : part ∈ parts) (hin : Character.scalar '%' ∈ part) : part ∈ read := by
  unfold expandQuad at h
  split at h
  · obtain rfl := Except.ok.inj h
    exact hpart
  · next last hlast =>
    split at h
    · split at h
      · cases h
      · next q hquad =>
        obtain rfl := Except.ok.inj h
        have hne : part ≠ last := fun heq => percent_not_mem_of_readQuad hquad (heq ▸ hin)
        obtain ⟨front, rfl⟩ := List.getLast?_eq_some_iff.1 hlast
        rw [List.dropLast_concat]
        rw [List.mem_append, List.mem_singleton] at hpart
        exact List.mem_append_left _ (hpart.resolve_right hne)
    · obtain rfl := Except.ok.inj h
      exact hpart

theorem percent_not_mem_of_readGroups {g : Groups} (h : readGroups t = .ok g) :
    Character.scalar '%' ∉ t := by
  intro hmem
  obtain ⟨part, hpart, hin⟩ := Text.exists_part_of_mem (p := (· == ':')) hmem (by decide)
  change part ∈ t.splitOn (.scalar ':') at hpart
  unfold readGroups at h
  dsimp only at h
  split at h
  · cases h
  obtain ⟨read, hread, h⟩ := exists_of_bind_eq_ok h
  split at h
  · cases h
  obtain ⟨⟨high, low⟩, hhalves, h⟩ := exists_of_bind_eq_ok h
  obtain ⟨_, hhigh, h⟩ := exists_of_bind_eq_ok h
  obtain ⟨_, hlow, -⟩ := exists_of_bind_eq_ok h
  rcases mem_of_halves hhalves (percent_mem_of_expandQuad hread hpart hin)
    (List.ne_nil_of_mem hin) with hmem | hmem
  · exact absurd (isHexDigit_of_mapM_readGroup hhigh part hmem '%' hin) (by decide)
  · exact absurd (isHexDigit_of_mapM_readGroup hlow part hmem '%' hin) (by decide)

/-- An address has a dotted form if it has no scope, and not otherwise. -/
theorem exists_dotted_iff : (∃ form, client.dotted = .ok form) ↔ client.isScoped = false := by
  constructor
  · rintro ⟨form, hform⟩
    match client with
    | .v4 q => rfl
    | .v6 g none => rfl
    | .v6 g (some scope) =>
      cases hread : readGroups (Address.v6 g (some scope)).toText with
      | error fault => rw [dotted, hread] at hform; cases hform
      | ok groups => exact absurd (by simp [toText]) (percent_not_mem_of_readGroups hread)
  · intro h
    exact ⟨_, dotted_eq h⟩

end Address

end SenderPolicy
