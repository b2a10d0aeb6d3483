import SenderPolicy.Proofs.Address.Client
import SenderPolicy.Proofs.Expansion.Effects
import SenderPolicy.Proofs.ValidatedName.CacheKey

/-! The name of a client's pointers as a macro string.  The letters of the address and of its
version make the name from the address itself, and lookups make it from the address's text, which
they read anew.  Both have the same name for the address of every session that has no scope. -/

namespace SenderPolicy

open SenderPolicy.Action

namespace Address

variable {client : Address} {reverse : Text → Option Text}

/-! ### Addresses of clients -/

/-- Whether an address is what is made of the address of a client, which is given by its text or as
an address. -/
def IsClient (client : Address) : Prop :=
  (∃ text, ofClient? text = some client) ∨ ∃ given : Address, given.unmapped = client

theorem IsClient.unmapped_eq (h : client.IsClient) : client.unmapped = client := by
  rcases h with ⟨text, htext⟩ | ⟨given, rfl⟩
  · obtain ⟨given, -, rfl⟩ := Option.map_eq_some_iff.1 htext
    exact unmapped_unmapped given
  · exact unmapped_unmapped given

/-- The name of the pointers of a client: the parts of its address from right to left, and the label
of the family. -/
theorem pointerName?_eq (h : client.IsClient) (hscope : client.isScoped = false) :
    client.pointerName? =
      some (Text.join ['.'] client.parts.reverse ++
        .scalar '.' :: (client.label ++ (".arpa" : Text))) := by
  have hunmapped := h.unmapped_eq
  match client with
  | .v4 q =>
    rw [pointerName?, quadPointerName, parts, List.map_reverse]
    rfl
  | .v6 g none =>
    cases hmapped : g.mapped? with
    | none =>
      rw [pointerName?, hmapped, groupsPointerName, parts, List.map_reverse]
      rfl
    | some q =>
      rw [unmapped, hmapped] at hunmapped
      cases hunmapped
  | .v6 g (some scope) => cases hscope

/-! ### Names by texts -/

/-- What is assumed of the library that names the pointers of an address by its text: the octets of
an IPv4 address or the digits of an IPv6 address, from right to left, and a mapped IPv4 address as
that address. -/
structure NamesByText (reverse : Text → Option Text) : Prop where
  quad : ∀ t q, ofText? t = some (.v4 q) → reverse t = some (quadPointerName q)
  groups : ∀ t g, ofText? t = some (.v6 g none) → g.mapped? = none →
    reverse t = some (groupsPointerName g)
  mapped : ∀ t g q, ofText? t = some (.v6 g none) → g.mapped? = some q →
    reverse t = some (quadPointerName q)

theorem NamesByText.toText (h : NamesByText reverse) (hscope : client.isScoped = false) :
    reverse client.toText = client.pointerName? := by
  have hread := ofText?_toText_of_unscoped hscope
  match client with
  | .v4 q => exact h.quad _ q hread
  | .v6 g none =>
    cases hmapped : g.mapped? with
    | none => rw [pointerName?, hmapped, h.groups _ g hread hmapped]
    | some q => rw [pointerName?, hmapped, h.mapped _ g q hread hmapped]
  | .v6 g (some scope) => cases hscope

/-- To read a text and to name the address that it denotes is one way to do that. -/
theorem namesByText_bind : NamesByText fun t => (ofText? t).bind pointerName? where
  quad t q ht := by rw [ht]; rfl
  groups t g ht hmapped := by rw [ht, Option.bind_some, pointerName?, hmapped]
  mapped t g q ht hmapped := by rw [ht, Option.bind_some, pointerName?, hmapped]

end Address

namespace Transformation

/-- A value that is not transformed is cut at its dots and joined again. -/
theorem transform?_default (value : Text) : transform? {} value = .ok value := by
  have hdelimiters : ({} : Transformation).delimiters ≠ [] := nofun
  exact (transform?_plain hdelimiters value).trans (congrArg Except.ok (join_selected_plain value))

theorem transform?_reverse (value : Text) :
    transform? { reverse := true } value =
      .ok (Text.join ['.'] (value.splitOn (.scalar '.')).reverse) := by
  have hdelimiters : ({ reverse := true } : Transformation).delimiters ≠ [] := nofun
  rw [splitOn_eq_splitOnP]
  exact transform?_plain hdelimiters value

end Transformation

namespace Expander

variable {x : Expander} {session : Session} {e : Environment}

/-- The letters of the address and of its version make the name, and nothing else is done. -/
theorem exec_expand_pointerName {dotted : Text} (hdotted : session.client.dotted = .ok dotted)
    (s : State) :
    exec (x.expand session "%\x7bir\x7d.%\x7bv\x7d.arpa" Letter.allChars) e s =
      (.ok (Text.join ['.'] (dotted.splitOn (.scalar '.')).reverse ++
        .scalar '.' :: (session.client.label ++ (".arpa" : Text))), s) := by
  have hscan : MacroString.scan Letter.allChars "%\x7bir\x7d.%\x7bv\x7d.arpa" =
      .ok [.token { letter := .clientAddress, reverse := true }, .literal ".",
        .token { letter := .addressVersion }, .literal ".arpa"] := rfl
  have hempty : exec (x.expandPieces session []) e s = (.ok [], s) := rfl
  have hlabel : exec (x.resolve session .addressVersion) e s = (.ok session.client.label, s) := rfl
  have haddress : exec (x.resolve session .clientAddress) e s = (.ok dotted, s) := by
    rw [resolve, hdotted]
    rfl
  have hzone := exec_expandPieces_literal ".arpa" hempty
  have hversion := exec_expandPieces_token { letter := .addressVersion }
    (Transformation.transform?_default _) hlabel hzone
  have hdot := exec_expandPieces_literal "." hversion
  have hwhole := exec_expandPieces_token { letter := .clientAddress, reverse := true }
    (Transformation.transform?_reverse dotted) haddress hdot
  rw [expand_of_scan hscan, hwhole, List.append_nil]
  rfl

/-- The address of a client that has no scope has one name for its pointers: that of its parts from
right to left and the label of its family, that under which its text is published, that which a
macro string makes of it, and that under which the letter of the validated name looks it up. -/
theorem expand_pointerName_exact (client : Address) (hclient : client.IsClient)
    (hscope : client.isScoped = false) :
    ∃ dotted name, client.dotted = .ok dotted ∧
      name = Text.join ['.'] (dotted.splitOn (.scalar '.')).reverse ++
        .scalar '.' :: (client.label ++ (".arpa" : Text)) ∧
      client.pointerName? = some name ∧
      (∀ reverse, Address.NamesByText reverse → reverse client.toText = some name) ∧
      ∀ (x : Expander) (session : Session), session.client = client → ∀ e s,
        exec (x.expand session "%\x7bir\x7d.%\x7bv\x7d.arpa" Letter.allChars) e s =
          (.ok name, s) ∧
        (x.IsMissing session e s.store →
          Asks [name] s (exec (x.expand session "%\x7bp\x7d" Letter.allChars) e s).2) ∧
        (¬ x.IsMissing session e s.store →
          Asks [] s (exec (x.expand session "%\x7bp\x7d" Letter.allChars) e s).2) := by
  have hdotted := Address.dotted_eq hscope
  have hname := Address.pointerName?_eq hclient hscope
  refine ⟨_, _, hdotted, rfl, ?_, ?_, ?_⟩
  · rw [Address.splitOn_dotted]
    exact hname
  · intro reverse hreverse
    rw [Address.splitOn_dotted, hreverse.toText hscope]
    exact hname
  · rintro x session rfl e s
    have hbare : (exec (x.expand session "%\x7bp\x7d" Letter.allChars) e s).2 =
        (exec (x.resolve session .validatedName) e s).2 := by
      change (exec (x.expand session (bare .validatedName) Letter.allChars) e s).2 = _
      rw [exec_expand_of_token (scan_bare .validatedName)]
    refine ⟨exec_expand_pointerName hdotted s, ?_, ?_⟩
    · intro hmissing
      have hasks := asks_resolve_of_missing hmissing
      rw [hname, ← hbare] at hasks
      rw [Address.splitOn_dotted]
      exact hasks
    · intro hcached
      have hasks := asks_resolve_of_not_missing hcached
      rwa [← hbare] at hasks

/-- The address 192.0.2.1 that a client gives as a mapped one, and an IPv6 address, in all ways. -/
theorem expand_pointerName_exact_mapped :
    let mapped : Address := .v4 #v[192, 0, 2, 1]
    let plain : Address := .v6 #v[0x2001, 0xdb8, 0, 0, 0, 0, 0, 0xab] none
    let quadName : Text := "1.2.0.192.in-addr.arpa"
    let groupsName : Text :=
      "b.a.0.0.0.0.0.0.0.0.0.0.0.0.0.0.0.0.0.0.0.0.0.0.8.b.d.0.1.0.0.2.ip6.arpa"
    let reverse (t : Text) : Option Text := (Address.ofText? t).bind Address.pointerName?
    Address.ofClient? (" ::ffff:192.0.2.1" : Text) = some mapped ∧
      Address.ofClient? ("2001:DB8::ab" : Text) = some plain ∧ Address.NamesByText reverse ∧
      reverse "192.0.2.1" = some quadName ∧ reverse "2001:db8::ab" = some groupsName ∧
      ∀ e s,
        exec (mailExpander.expand (mailSession mapped) "%\x7bir\x7d.%\x7bv\x7d.arpa"
          Letter.allChars) e s = (.ok quadName, s) ∧
        exec (mailExpander.expand (mailSession plain) "%\x7bir\x7d.%\x7bv\x7d.arpa"
          Letter.allChars) e s = (.ok groupsName, s) := by
  intro mapped plain quadName groupsName reverse
  have hmapped : Address.ofClient? (" ::ffff:192.0.2.1" : Text) = some mapped := by decide +kernel
  have hplain : Address.ofClient? ("2001:DB8::ab" : Text) = some plain := by decide +kernel
  have hreverse : Address.NamesByText reverse := Address.namesByText_bind
  obtain ⟨-, name, -, -, hname, hquad, hexpand⟩ :=
    expand_pointerName_exact mapped (.inl ⟨_, hmapped⟩) rfl
  obtain ⟨-, other, -, -, hother, hgroups, hexpand'⟩ :=
    expand_pointerName_exact plain (.inl ⟨_, hplain⟩) rfl
  obtain rfl : quadName = name := Option.some.inj hname
  obtain rfl : groupsName = other := Option.some.inj hother
  refine ⟨hmapped, hplain, hreverse, hquad reverse hreverse, hgroups reverse hreverse, ?_⟩
  intro e s
  exact ⟨(hexpand mailExpander _ rfl e s).1, (hexpand' mailExpander _ rfl e s).1⟩

end Expander

end SenderPolicy
