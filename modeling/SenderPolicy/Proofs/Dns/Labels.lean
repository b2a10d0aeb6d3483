import Mathlib.Data.List.Infix
import SenderPolicy.Dns.Name

/-! Labels of texts that present domain names.  A dot separates labels unless it is escaped by a
backslash, so what follows a dot of a text has labels of that text, or cuts one of them. -/

namespace SenderPolicy

namespace Text

/-- Whether the next character is escaped, after `c`. -/
def escapesAfter (escaped : Bool) (c : Character) : Bool := !escaped && c == '\x5c'

/-- The labels of a text, whose first character may be escaped. -/
def labelsFrom (escaped : Bool) : Text → List Text
  | [] => [[]]
  | c :: t =>
    if c = '.' ∧ escaped = false then [] :: labelsFrom false t
    else (labelsFrom (escapesAfter escaped c) t).modifyHead (c :: ·)

/-- The labels of a domain name that is presented as text. -/
def labels (t : Text) : List Text := labelsFrom false t

/-- Whether a text ends in a backslash that escapes what follows. -/
def endsInEscape (t : Text) : Bool := t.foldl escapesAfter false

variable {escaped : Bool} {front tail : Text}

theorem exists_labelsFrom (escaped : Bool) (t : Text) :
    ∃ label others, labelsFrom escaped t = label :: others := by
  induction t generalizing escaped with
  | nil => exact ⟨[], [], rfl⟩
  | cons c t ih =>
    rw [labelsFrom]
    split
    · exact ⟨[], _, rfl⟩
    · obtain ⟨label, others, hlabels⟩ := ih (escapesAfter escaped c)
      exact ⟨c :: label, others, by rw [hlabels, List.modifyHead_cons]⟩

/-- A dot that is not escaped ends a label, and the others are those of what follows. -/
theorem labelsFrom_append_dot (h : front.foldl escapesAfter escaped = false) :
    labelsFrom escaped (front ++ .scalar '.' :: tail) =
      labelsFrom escaped front ++ labelsFrom false tail := by
  induction front generalizing escaped with
  | nil =>
    obtain rfl : escaped = false := h
    rfl
  | cons c front ih =>
    rw [List.cons_append, labelsFrom, labelsFrom]
    split
    · next hdot =>
      obtain ⟨rfl, rfl⟩ := hdot
      have h : front.foldl escapesAfter false = false := h
      rw [ih h, List.cons_append]
    · obtain ⟨label, others, hlabels⟩ := exists_labelsFrom (escapesAfter escaped c) front
      rw [ih h, hlabels]
      rfl

/-- A dot that is escaped is in a label, of which more than the part after it is left. -/
theorem exists_labelsFrom_append_escaped (tail : Text)
    (h : front.foldl escapesAfter escaped = true) :
    ∃ before part label others, labelsFrom false tail = label :: others ∧
      labelsFrom escaped (front ++ .scalar '.' :: tail) =
        before ++ (part ++ .scalar '.' :: label) :: others := by
  induction front generalizing escaped with
  | nil =>
    obtain rfl : escaped = true := h
    obtain ⟨label, others, hlabels⟩ := exists_labelsFrom false tail
    refine ⟨[], [], label, others, hlabels, ?_⟩
    rw [List.nil_append, labelsFrom, if_neg (by simp)]
    exact congrArg (List.modifyHead _) hlabels
  | cons c front ih =>
    rw [List.cons_append, labelsFrom]
    split
    · next hdot =>
      obtain ⟨rfl, rfl⟩ := hdot
      have h : front.foldl escapesAfter false = true := h
      obtain ⟨before, part, label, others, htail, hwhole⟩ := ih h
      exact ⟨[] :: before, part, label, others, htail, by rw [hwhole, List.cons_append]⟩
    · obtain ⟨before, part, label, others, htail, hwhole⟩ := ih h
      rw [hwhole]
      cases before with
      | nil => exact ⟨[], c :: part, label, others, htail, rfl⟩
      | cons first before => exact ⟨(c :: first) :: before, part, label, others, htail, rfl⟩

/-- What follows a dot has the last labels of the whole, unless that dot is escaped. -/
theorem labels_isSuffix_iff (front tail : Text) :
    tail.labels <:+ (front ++ .scalar '.' :: tail).labels ↔ front.endsInEscape = false := by
  constructor
  · intro h
    by_contra hescape
    obtain ⟨before, part, label, others, htail, hwhole⟩ :=
      exists_labelsFrom_append_escaped tail (Bool.of_not_eq_false hescape)
    rw [labels, labels, htail, hwhole] at h
    have hlast : label :: others = (part ++ .scalar '.' :: label) :: others :=
      (List.suffix_of_suffix_length_le h (List.suffix_append before _) le_rfl).eq_of_length rfl
    have hlength := congrArg List.length (List.cons.inj hlast).1
    simp only [List.length_append, List.length_cons] at hlength
    omega
  · intro h
    rw [labels, labels, labelsFrom_append_dot h]
    exact List.suffix_append _ _

/-! ### Names -/

/-- A text that neither begins nor ends a label. -/
def IsInLabel (t : Text) : Prop :=
  ∀ rest, labelsFrom false (t ++ rest) = (labelsFrom false rest).modifyHead (t ++ ·)

theorem isInLabel_nil : IsInLabel [] := fun rest => by
  obtain ⟨label, others, hlabels⟩ := exists_labelsFrom false rest
  rw [List.nil_append, hlabels]
  rfl

theorem IsInLabel.append {t u : Text} (ht : IsInLabel t) (hu : IsInLabel u) :
    IsInLabel (t ++ u) := fun rest => by
  obtain ⟨label, others, hlabels⟩ := exists_labelsFrom false rest
  rw [List.append_assoc, ht, hu, hlabels]
  simp

theorem isInLabel_singleton {c : Character} (hdot : c ≠ '.') (hescape : c ≠ '\x5c') :
    IsInLabel [c] := fun rest => by
  have hafter : escapesAfter false c = false := by simpa [escapesAfter] using hescape
  rw [List.singleton_append, labelsFrom, if_neg (by simp [hdot]), hafter]
  rfl

theorem isInLabel_escaped (c : Character) : IsInLabel ['\x5c', c] := fun rest => by
  obtain ⟨label, others, hlabels⟩ := exists_labelsFrom false rest
  show labelsFrom false (.scalar '\x5c' :: c :: rest) = _
  rw [labelsFrom, if_neg (by decide), labelsFrom, if_neg (by simp [escapesAfter])]
  have hafter : escapesAfter (escapesAfter false '\x5c') c = false := rfl
  rw [hafter, hlabels]
  rfl

theorem isInLabel_of_forall {t : Text} (h : ∀ c ∈ t, c ≠ '.' ∧ c ≠ '\x5c') : IsInLabel t := by
  induction t with
  | nil => exact isInLabel_nil
  | cons c t ih =>
    obtain ⟨⟨hdot, hescape⟩, h⟩ := List.forall_mem_cons.1 h
    exact (isInLabel_singleton hdot hescape).append (ih h)

end Text

namespace DomainName

open Text

/-- A byte is presented by characters that mean nothing else, or by a backslash, the character that
it escapes, and such characters. -/
theorem presentByte_cases (b : UInt8) :
    (∀ c ∈ presentByte b, c ≠ '.' ∧ c ≠ '\x5c') ∨
      (presentByte b).take 1 = ['\x5c'] ∧ 2 ≤ (presentByte b).length ∧
        ∀ c ∈ (presentByte b).drop 2, c ≠ '.' ∧ c ≠ '\x5c' := by
  let plain (t : Text) : Bool := t.all fun c => c != '.' && c != '\x5c'
  have hpresent : ∀ n : Fin 256, let t := presentByte (UInt8.ofNat n.val)
      plain t || t.take 1 == ['\x5c'] && decide (2 ≤ t.length) && plain (t.drop 2) := by
    decide +kernel
  have hb := hpresent ⟨b.toNat, b.toNat_lt⟩
  rw [UInt8.ofNat_toNat] at hb
  simpa [plain, and_assoc] using hb

theorem isInLabel_presentByte (b : UInt8) : IsInLabel (presentByte b) := by
  rcases presentByte_cases b with hplain | ⟨hfirst, hlength, hplain⟩
  · exact isInLabel_of_forall hplain
  · match hpresent : presentByte b with
    | [] => simp [hpresent] at hlength
    | [_] => simp [hpresent] at hlength
    | first :: c :: rest =>
      rw [hpresent] at hfirst hplain
      obtain rfl : first = '\x5c' := (List.cons.inj hfirst).1
      exact (isInLabel_escaped c).append (isInLabel_of_forall hplain)

theorem isInLabel_presentLabel (label : Bytes) : IsInLabel (presentLabel label) := by
  induction label with
  | nil => exact isInLabel_nil
  | cons b label ih => exact (isInLabel_presentByte b).append ih

/-- The labels of the text of a name are those of the name. -/
theorem labels_toText {name : DomainName} (hname : name ≠ []) :
    name.toText.labels = name.map presentLabel := by
  rw [toText, if_neg hname]
  induction name with
  | nil => exact absurd rfl hname
  | cons label name ih =>
    have hlabel := isInLabel_presentLabel label
    cases name with
    | nil =>
      have hwhole := hlabel []
      rw [List.append_nil] at hwhole
      simpa [labels, join, labelsFrom] using hwhole
    | cons next name =>
      have hrest := ih (by simp)
      rw [labels] at hrest ⊢
      rw [List.map_cons, List.map_cons, join, List.intercalate_cons_cons, List.append_assoc,
        hlabel, ← List.map_cons, ← join, List.singleton_append, labelsFrom, if_pos (by simp), hrest]
      simp

end DomainName

end SenderPolicy
