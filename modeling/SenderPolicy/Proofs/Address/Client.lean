import SenderPolicy.Proofs.Address.Dotted
import SenderPolicy.Proofs.Text.Ends

/-! Addresses of clients.  The address that is made of a client's text is never a mapped one, and
its own text, between any white space, makes it again.  This goes for an address with a scope too,
which is the rest of the text and therefore does not end in white space. -/

namespace SenderPolicy.Address

variable {t scope : Text} {g : Groups} {client : Address}

theorem unmapped_unmapped (a : Address) : a.unmapped.unmapped = a.unmapped := by
  cases a with
  | v4 q => rfl
  | v6 g scope =>
    rw [unmapped]
    split
    · rfl
    · next hmapped => rw [unmapped, hmapped]

theorem mapped?_of_unmapped {g : Groups} {scope : Option Text}
    (h : (Address.v6 g scope).unmapped = .v6 g scope) : g.mapped? = none := by
  cases hmapped : g.mapped? with
  | none => rfl
  | some q =>
    rw [unmapped, hmapped] at h
    cases h

/-! ### Scopes -/

/-- What a scope is like that can be written after an address and read again. -/
structure IsScope (scope : Text) : Prop where
  ne_nil : scope ≠ []
  percent_not_mem : Character.scalar '%' ∉ scope
  slash_not_mem : Character.scalar '/' ∉ scope
  not_isBlank : ∀ c, scope.getLast? = some c → Text.isBlank c = false

/-- The scope is what follows the only percent sign. -/
theorem splitScope?_eq_some_some {address : Text} (h : splitScope? t = some (address, some scope)) :
    t = address ++ .scalar '%' :: scope ∧ scope ≠ [] ∧ Character.scalar '%' ∉ scope := by
  have hjoin : Text.join ['%'] (t.splitOn (.scalar '%')) = t := List.intercalate_splitOn _
  have hparts : ∀ part ∈ t.splitOn (.scalar '%'), Character.scalar '%' ∉ part :=
    fun _ => Text.not_mem_of_mem_splitOn
  unfold splitScope? at h
  split at h
  · cases h
  · cases h
  · next front rest hrest hsplit =>
    cases h
    rw [hsplit] at hjoin hparts
    exact ⟨by simpa [Text.join] using hjoin.symm, hrest, hparts _ (by simp)⟩
  · cases h

theorem splitScope?_append {address : Text} (haddress : Character.scalar '%' ∉ address)
    (h : IsScope scope) :
    splitScope? (address ++ .scalar '%' :: scope) = some (address, some scope) := by
  have hsplit : (address ++ .scalar '%' :: scope).splitOn (.scalar '%') = [address, scope] := by
    rw [List.splitOn_append_cons_self_of_not_mem haddress,
      List.splitOn_eq_singleton h.percent_not_mem]
  unfold splitScope?
  rw [hsplit]
  split
  · next heq => cases heq
  · next heq => exact absurd (List.cons.inj (List.cons.inj heq).2).1 h.ne_nil
  · next heq =>
    cases heq
    rfl
  · next hnone => exact absurd rfl (hnone _ _)

theorem isDigit_of_readOctet {o : UInt8} (h : readOctet t = .ok o) : ∀ c ∈ t, c.isDigit := by
  unfold readOctet at h
  split at h
  · cases h
  · split at h
    · cases h
    · next hall => simpa using hall

theorem exists_octet_of_bind {α : Type} {next : UInt8 → Except QuadFault α} {a : α}
    (h : (readOctet t).mapError QuadFault.octet >>= next = .ok a) :
    ∃ o, readOctet t = .ok o ∧ next o = .ok a := by
  cases hread : readOctet t with
  | error fault =>
    rw [hread] at h
    cases h
  | ok o =>
    rw [hread] at h
    exact ⟨o, rfl, h⟩

/-- An IPv4 address is written in digits and dots. -/
theorem isDigit_or_eq_dot_of_readQuad {q : Quad} (h : readQuad t = .ok q) :
    ∀ c ∈ t, c.isDigit ∨ c = '.' := by
  intro c hc
  have hjoin : Text.join ['.'] (t.splitOn (.scalar '.')) = t := List.intercalate_splitOn _
  unfold readQuad at h
  split at h
  · next first second third fourth hsplit =>
    obtain ⟨o1, h1, h⟩ := exists_octet_of_bind h
    obtain ⟨o2, h2, h⟩ := exists_octet_of_bind h
    obtain ⟨o3, h3, h⟩ := exists_octet_of_bind h
    obtain ⟨o4, h4, -⟩ := exists_octet_of_bind h
    rw [← hjoin, hsplit] at hc
    rcases Text.mem_join hc with hdot | ⟨part, hpart, hmem⟩
    · exact .inr hdot
    · left
      simp only [List.mem_cons, List.not_mem_nil, or_false] at hpart
      rcases hpart with rfl | rfl | rfl | rfl
      · exact isDigit_of_readOctet h1 c hmem
      · exact isDigit_of_readOctet h2 c hmem
      · exact isDigit_of_readOctet h3 c hmem
      · exact isDigit_of_readOctet h4 c hmem
  · cases h

theorem exists_error_readQuad {c : Character} (hc : c ∈ t) (hdigit : c.isDigit = false)
    (hdot : c ≠ '.') :
    ∃ fault, readQuad t = .error fault := by
  cases hread : readQuad t with
  | error fault => exact ⟨fault, rfl⟩
  | ok q =>
    rcases isDigit_or_eq_dot_of_readQuad hread c hc with h | h
    · rw [hdigit] at h
      cases h
    · exact absurd h hdot

theorem ofText?_scoped (g : Groups) (h : IsScope scope) :
    ofText? (Address.v6 g (some scope)).toText = some (.v6 g (some scope)) := by
  have hpercent : Character.scalar '%' ∉ g.toText := not_mem_groupsToText g (by decide) (by decide)
  have hslash : Character.scalar '/' ∉ g.toText ++ .scalar '%' :: scope := by
    have hout : Character.scalar '/' ∉ g.toText := not_mem_groupsToText g (by decide) (by decide)
    simp [hout, h.slash_not_mem]
  have hmem : Character.scalar '%' ∈ g.toText ++ .scalar '%' :: scope := by simp
  obtain ⟨fault, hquad⟩ := exists_error_readQuad hmem (by decide) (by decide)
  show ofText? (g.toText ++ .scalar '%' :: scope) = _
  rw [ofText?, if_neg (by simpa using hslash), hquad, splitScope?_append hpercent h]
  simp only [readGroups_toText]

/-- A scope that is read from a text ends as the text does. -/
theorem isScope_of_ofText? (hlast : ∀ c, t.getLast? = some c → Text.isBlank c = false)
    (h : ofText? t = some (.v6 g (some scope))) : IsScope scope := by
  unfold ofText? at h
  split at h
  · cases h
  · next hslash =>
    split at h
    · cases h
    · split at h
      · next address other hsplit =>
        split at h
        · cases h
          obtain ⟨rfl, hne, hpercent⟩ := splitScope?_eq_some_some hsplit
          refine ⟨hne, hpercent, ?_, ?_⟩
          · intro hmem
            exact hslash (by simp [hmem])
          · intro c hc
            refine hlast c ?_
            rw [List.getLast?_append, List.getLast?_cons, hc]
            rfl
        · cases h
      · cases h

/-! ### White space -/

theorem toNat_of_isHexDigit {c : Character} (h : isHexDigit c) :
    (48 ≤ c.toNat ∧ c.toNat ≤ 57) ∨ (97 ≤ c.toNat ∧ c.toNat ≤ 102) ∨
      (65 ≤ c.toNat ∧ c.toNat ≤ 70) := by
  simp only [isHexDigit, Character.isDigit_iff, Bool.or_eq_true, Bool.and_eq_true,
    decide_eq_true_eq, or_assoc] at h
  exact h

theorem isHexDigit_of_isBlank {c : Character} (h : Text.isBlank c) : isHexDigit c = false := by
  by_contra hdigit
  have hrange := toNat_of_isHexDigit (by simpa using hdigit)
  simp [Text.isBlank, Text.isWhiteSpace, Text.whiteSpace, Text.Ranges.contains] at h
  omega

theorem not_isBlank_of_mem_quadToText {q : Quad} {c : Character} (hc : c ∈ q.toText) :
    Text.isBlank c = false := by
  refine Bool.eq_false_iff.2 fun hblank => ?_
  have hdot : c ≠ '.' := by
    rintro rfl
    exact absurd hblank (by decide)
  exact not_mem_quadToText q (isHexDigit_of_isBlank hblank) hdot hc

theorem not_isBlank_of_mem_groupsToText {c : Character} (hc : c ∈ g.toText) :
    Text.isBlank c = false := by
  refine Bool.eq_false_iff.2 fun hblank => ?_
  have hcolon : c ≠ ':' := by
    rintro rfl
    exact absurd hblank (by decide)
  exact not_mem_groupsToText g (isHexDigit_of_isBlank hblank) hcolon hc

/-- The text of an address neither begins nor ends in white space, unless its scope does. -/
theorem not_isBlank_ends (hscope : ∀ g scope, client = .v6 g (some scope) → IsScope scope)
    {c : Character}
    (hc : client.toText.head? = some c ∨ client.toText.getLast? = some c) :
    Text.isBlank c = false := by
  match client with
  | .v4 q =>
    rcases hc with hc | hc
    · exact not_isBlank_of_mem_quadToText (List.mem_of_mem_head? hc)
    · exact not_isBlank_of_mem_quadToText (List.mem_of_getLast? hc)
  | .v6 g none =>
    rcases hc with hc | hc
    · exact not_isBlank_of_mem_groupsToText (List.mem_of_mem_head? hc)
    · exact not_isBlank_of_mem_groupsToText (List.mem_of_getLast? hc)
  | .v6 g (some scope) =>
    have h := hscope g scope rfl
    rw [toText, List.head?_append, List.getLast?_append, List.getLast?_cons] at hc
    rcases hc with hc | hc
    · cases hhead : g.toText.head? with
      | none =>
        rw [hhead] at hc
        obtain rfl : '%' = c := by simpa using hc
        decide
      | some d =>
        rw [hhead] at hc
        obtain rfl : d = c := by simpa using hc
        exact not_isBlank_of_mem_groupsToText (List.mem_of_mem_head? hhead)
    · obtain ⟨d, hlast⟩ := Option.ne_none_iff_exists'.1 (mt List.getLast?_eq_none_iff.1 h.ne_nil)
      rw [hlast] at hc
      obtain rfl : d = c := by simpa using hc
      exact h.not_isBlank d hlast

/-! ### Addresses of clients -/

theorem eq_of_unmapped_eq_v6 {a : Address} {scope : Option Text} (h : a.unmapped = .v6 g scope) :
    a = .v6 g scope := by
  cases a with
  | v4 q => cases h
  | v6 k other =>
    rw [unmapped] at h
    split at h
    · cases h
    · exact h

theorem isScope_of_ofClient? (h : ofClient? t = some (.v6 g (some scope))) : IsScope scope := by
  obtain ⟨given, hgiven, hunmapped⟩ := Option.map_eq_some_iff.1 h
  obtain rfl := eq_of_unmapped_eq_v6 hunmapped
  exact isScope_of_ofText? (fun _ => Text.getLast?_dropTrailing) hgiven

theorem unmapped_of_ofClient? (h : ofClient? t = some client) : client.unmapped = client := by
  obtain ⟨given, -, rfl⟩ := Option.map_eq_some_iff.1 h
  exact unmapped_unmapped given

theorem ofText?_toText_of_ofClient? (h : ofClient? t = some client) :
    ofText? client.toText = some client := by
  match client with
  | .v4 q => exact ofText?_toText_of_unscoped rfl
  | .v6 g none => exact ofText?_toText_of_unscoped rfl
  | .v6 g (some scope) => exact ofText?_scoped g (isScope_of_ofClient? h)

/-- The address of a client is what its text gives, between any white space, and it is not a mapped
one.  Without a scope it has a dotted form, of octets or of the digits of its number, and is read
back from it; so addresses without a scope are told by their dotted forms. -/
theorem ofClient?_forms_exact (text : Text) (client : Address) (h : ofClient? text = some client) :
    (∀ before after : Text, (∀ c ∈ before, Text.isBlank c) → (∀ c ∈ after, Text.isBlank c) →
      ofClient? (before ++ client.toText ++ after) = some client) ∧
    (∀ g scope, client = .v6 g scope → g.mapped? = none) ∧
    (client.isScoped = false → ∃ form, client.dotted = .ok form ∧ IsDotted client form ∧
      ofDotted? form = some client) ∧
    ∀ a b : Address, a.isScoped = false → b.isScoped = false → a.dotted = b.dotted → a = b := by
  refine ⟨?_, ?_, ?_, ?_⟩
  · intro before after hbefore hafter
    have hscope : ∀ g scope, client = .v6 g (some scope) → IsScope scope := by
      rintro g scope rfl
      exact isScope_of_ofClient? h
    have htrim : Text.trim Text.isBlank (before ++ client.toText ++ after) = client.toText :=
      Text.trim_append_append hbefore hafter (fun _ hc => not_isBlank_ends hscope (.inl hc))
        fun _ hc => not_isBlank_ends hscope (.inr hc)
    rw [ofClient?, htrim, ofText?_toText_of_ofClient? h, Option.map_some, unmapped_of_ofClient? h]
  · rintro g scope rfl
    exact mapped?_of_unmapped (unmapped_of_ofClient? h)
  · intro hscope
    exact ⟨_, dotted_eq hscope, isDotted_join_parts hscope, ofDotted?_join_parts hscope⟩
  · intro a b ha hb hdotted
    rw [dotted_eq ha, dotted_eq hb] at hdotted
    have hread := ofDotted?_join_parts ha
    rw [Except.ok.inj hdotted, ofDotted?_join_parts hb] at hread
    exact (Option.some.inj hread).symm

/-- Of two runs of two zero groups the first is not written, and a scope is kept. -/
theorem ofClient?_forms_exact_zeros :
    let client : Address := .v6 #v[0x2001, 0xdb8, 0, 0, 1, 0, 0, 0xab] none
    let zoned : Address := .v6 #v[0xfe80, 0, 0, 0, 0, 0, 0, 1] (some "eth 0")
    let form : Text := "2.0.0.1.0.d.b.8.0.0.0.0.0.0.0.0.0.0.0.1.0.0.0.0.0.0.0.0.0.0.a.b"
    ofClient? (" 2001:DB8:0:0:1:0:0:00AB" : Text) = some client ∧
      ofClient? ("fe80:0::1%eth 0 " : Text) = some zoned ∧
      ofClient? (" 2001:db8::1:0:0:ab " : Text) = some client ∧
      ofClient? ("  fe80::1%eth 0" : Text) = some zoned ∧
      client.dotted = .ok form ∧ IsDotted client form ∧ ofDotted? form = some client := by
  intro client zoned form
  have hclient : ofClient? (" 2001:DB8:0:0:1:0:0:00AB" : Text) = some client := by decide +kernel
  have hzoned : ofClient? ("fe80:0::1%eth 0 " : Text) = some zoned := by decide +kernel
  obtain ⟨hspaced, -, hforms, -⟩ := ofClient?_forms_exact _ client hclient
  obtain ⟨hzonedSpaced, -⟩ := ofClient?_forms_exact _ zoned hzoned
  obtain ⟨written, hdotted, hisDotted, hread⟩ := hforms rfl
  obtain rfl : form = written := Except.ok.inj hdotted
  have hblank (n : Nat) : ∀ c ∈ (List.replicate n ' ' : Text), Text.isBlank c := by
    intro c hc
    rw [List.eq_of_mem_replicate hc]
    decide
  exact ⟨hclient, hzoned, hspaced _ _ (hblank 1) (hblank 1),
    hzonedSpaced _ _ (hblank 2) (hblank 0), hdotted, hisDotted, hread⟩

end SenderPolicy.Address
