import SenderPolicy.Dns.Name
import SenderPolicy.Proofs.Text.Ends

/-! The ends of texts that present domain names.  The dots that end such a text are no separators:
the root is presented as one, and a dot that ends the last label follows a backslash. -/

namespace SenderPolicy

namespace DomainName

/-- The root, or a name whose last label ends in the byte of a dot. -/
def EndsInDot (name : DomainName) : Prop :=
  name = [] ∨ name.getLast?.bind List.getLast? = some 0x2e

instance (name : DomainName) : Decidable name.EndsInDot :=
  inferInstanceAs (Decidable (name = [] ∨ name.getLast?.bind List.getLast? = some 0x2e))

theorem getLast?_presentByte {b : UInt8} (h : b ≠ 0x2e) :
    ∃ c, (presentByte b).getLast? = some c ∧ c ≠ '.' := by
  have hpresent : ∀ n : Fin 256, UInt8.ofNat n.val ≠ 0x2e →
      ((presentByte (UInt8.ofNat n.val)).getLast?.any fun c => c != .scalar '.') := by
    decide +kernel
  have hb := hpresent ⟨b.toNat, b.toNat_lt⟩
  rw [UInt8.ofNat_toNat] at hb
  simpa [Option.any_eq_true] using hb h

theorem join_append_singleton (separator : Text) (parts : List Text) (part : Text) :
    ∃ t, Text.join separator (parts ++ [part]) = t ++ part := by
  induction parts with
  | nil => exact ⟨[], by simp [Text.join]⟩
  | cons first parts ih =>
    obtain ⟨t, ht⟩ := ih
    obtain ⟨second, rest, hrest⟩ := List.exists_cons_of_ne_nil (l := parts ++ [part]) (by simp)
    rw [hrest] at ht
    refine ⟨first ++ separator ++ t, ?_⟩
    rw [List.cons_append, hrest, Text.join, List.intercalate_cons_cons]
    rw [Text.join] at ht
    simp [ht]

/-- A name other than the root ends in the presentation of the last byte of its last label. -/
theorem toText_eq_append {name : DomainName} {label : Bytes} {b : UInt8}
    (hlabel : name.getLast? = some label) (hb : label.getLast? = some b) :
    ∃ t, name.toText = t ++ presentByte b := by
  obtain ⟨labels, rfl⟩ := List.getLast?_eq_some_iff.1 hlabel
  obtain ⟨bytes, rfl⟩ := List.getLast?_eq_some_iff.1 hb
  obtain ⟨u, hu⟩ := join_append_singleton ['.'] (labels.map presentLabel)
    (presentLabel (bytes ++ [b]))
  refine ⟨u ++ bytes.flatMap presentByte, ?_⟩
  rw [toText, if_neg (by simp), List.map_append, List.map_singleton, hu]
  simp [presentLabel]

/-- The text of a name that ends in a dot is the dot of the root, or it ends in a dot that follows
a backslash. -/
theorem toText_of_endsInDot {name : DomainName} (h : EndsInDot name) :
    name.toText = (['.'] : Text) ∨ ∃ t, name.toText = t ++ [.scalar '\x5c', .scalar '.'] := by
  rcases h with rfl | h
  · exact .inl rfl
  · obtain ⟨label, hlabel, hdot⟩ := Option.bind_eq_some_iff.1 h
    exact .inr (toText_eq_append hlabel hdot)

theorem ne_nil_of_fault? {name : DomainName} (hname : fault? name = none) {label : Bytes}
    (hlabel : label ∈ name) : label ≠ [] := by
  rintro rfl
  have hzero : (name.map List.length).contains 0 :=
    List.contains_iff_mem.2 (List.mem_map.2 ⟨[], hlabel, rfl⟩)
  unfold fault? at hname
  simp only [hzero, if_true] at hname
  split at hname
  · cases hname
  · split at hname <;> cases hname

/-- The text of any other name ends in no dot, for none of its labels is empty. -/
theorem getLast?_toText {name : DomainName} (hname : fault? name = none) (h : ¬ EndsInDot name) :
    name.toText.getLast? ≠ some (.scalar '.') := by
  obtain ⟨hroot, hend⟩ := not_or.1 h
  have hlast : name.getLast? = some (name.getLast hroot) := List.getLast?_eq_some_getLast hroot
  have hlabel := ne_nil_of_fault? hname (List.getLast_mem hroot)
  have hb : (name.getLast hroot).getLast? = some ((name.getLast hroot).getLast hlabel) :=
    List.getLast?_eq_some_getLast hlabel
  obtain ⟨t, htext⟩ := toText_eq_append hlast hb
  have hdot : (name.getLast hroot).getLast hlabel ≠ 0x2e := fun h =>
    hend (Option.bind_eq_some_iff.2 ⟨_, hlast, h ▸ hb⟩)
  obtain ⟨d, hd, hne⟩ := getLast?_presentByte hdot
  rw [htext, List.getLast?_append, hd]
  simpa using hne

end DomainName

end SenderPolicy
