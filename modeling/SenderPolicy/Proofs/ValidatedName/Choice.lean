import SenderPolicy.Proofs.ValidatedName.Names

/-! The choice among validated names.  Names are compared in lower case with the domain, which has
lost the dots at its end: the first name that is the domain is chosen, or else the first one below
it, or else the first of all. -/

namespace SenderPolicy.ValidatedName

/-- A domain as names are compared with it. -/
def target (domain : Text) : Text := domain.lower.dropFinalDots

def IsSame (domain name : Text) : Prop := name.lower = target domain

/-- A name has the domain for its last labels, and labels before these. -/
def IsBelow (domain name : Text) : Prop := .scalar '.' :: target domain <:+ name.lower

/-- A name ends in the domain, but no label ends where the domain begins. -/
def IsLookAlike (domain name : Text) : Prop :=
  target domain <:+ name.lower ∧ ¬ IsSame domain name ∧ ¬ IsBelow domain name

/-- The first of some names that satisfies a condition. -/
def IsFirst (p : Text → Prop) (names : List Text) (name : Text) : Prop :=
  p name ∧ ∃ before after, names = before ++ name :: after ∧ ∀ earlier ∈ before, ¬ p earlier

/-- The order in which names are preferred, and the name that is the first by it. -/
inductive IsPreferred (domain : Text) (names : List Text) (name : Text) : Prop
  | same (first : IsFirst (IsSame domain) names name)
  | below (noneSame : ∀ other ∈ names, ¬ IsSame domain other)
      (first : IsFirst (IsBelow domain) names name)
  | other (noneSame : ∀ other ∈ names, ¬ IsSame domain other)
      (noneBelow : ∀ other ∈ names, ¬ IsBelow domain other) (first : names.head? = some name)

variable {domain name : Text} {names before after : List Text}

/-! ### First names -/

/-- A search finds the first name that satisfies its condition. -/
theorem find?_eq_some_iff_isFirst {p : Text → Prop} {test : Text → Bool}
    (htest : ∀ name, test name = true ↔ p name) :
    names.find? test = some name ↔ IsFirst p names name := by
  rw [List.find?_eq_some_iff_append, htest, IsFirst]
  simp only [Bool.not_eq_true', ← Bool.not_eq_true, htest]

theorem find?_eq_none_iff {p : Text → Prop} {test : Text → Bool}
    (htest : ∀ name, test name = true ↔ p name) :
    names.find? test = none ↔ ∀ name ∈ names, ¬ p name := by
  simp only [List.find?_eq_none, htest]

/-- A search passes over a name that does not satisfy its condition. -/
theorem find?_append_cons_of_not {p : Text → Prop} {test : Text → Bool}
    (htest : ∀ name, test name = true ↔ p name) (h : ¬ p name) (before after : List Text) :
    (before ++ name :: after).find? test = (before ++ after).find? test := by
  rw [List.find?_append, List.find?_cons_of_neg (mt (htest name).1 h), ← List.find?_append]

theorem same_test (domain name : Text) :
    (name.lower == domain.lower.dropFinalDots) = true ↔ IsSame domain name :=
  beq_iff_eq

theorem below_test (domain name : Text) :
    (.scalar '.' :: domain.lower.dropFinalDots).isSuffixOf name.lower = true ↔
      IsBelow domain name :=
  List.isSuffixOf_iff_suffix

theorem IsFirst.append {p : Text → Prop} (h : IsFirst p names name) (more : List Text) :
    IsFirst p (names ++ more) name := by
  obtain ⟨hname, before, after, rfl, hbefore⟩ := h
  exact ⟨hname, before, after ++ more, by simp, hbefore⟩

/-! ### The name that is chosen -/

theorem choose_of_same (h : IsFirst (IsSame domain) names name) : choose names domain = name := by
  unfold choose
  simp only [(find?_eq_some_iff_isFirst (same_test domain)).2 h]

theorem choose_of_below (hsame : ∀ other ∈ names, ¬ IsSame domain other)
    (h : IsFirst (IsBelow domain) names name) : choose names domain = name := by
  unfold choose
  simp only [(find?_eq_none_iff (same_test domain)).2 hsame,
    (find?_eq_some_iff_isFirst (below_test domain)).2 h]

theorem choose_of_other (hsame : ∀ other ∈ names, ¬ IsSame domain other)
    (hbelow : ∀ other ∈ names, ¬ IsBelow domain other) :
    choose names domain = names.headD unknown := by
  unfold choose
  simp only [(find?_eq_none_iff (same_test domain)).2 hsame,
    (find?_eq_none_iff (below_test domain)).2 hbelow]

theorem IsPreferred.choose_eq (h : IsPreferred domain names name) : choose names domain = name := by
  cases h with
  | same first => exact choose_of_same first
  | below noneSame first => exact choose_of_below noneSame first
  | other noneSame noneBelow first =>
    rw [choose_of_other noneSame noneBelow, List.headD_eq_head?_getD, first]
    rfl

/-- Every list of names but the empty one has a preferred name. -/
theorem exists_isPreferred (h : names ≠ []) (domain : Text) :
    ∃ name, IsPreferred domain names name := by
  cases hsame : names.find? (·.lower == domain.lower.dropFinalDots) with
  | some name => exact ⟨name, .same ((find?_eq_some_iff_isFirst (same_test domain)).1 hsame)⟩
  | none =>
    have noneSame := (find?_eq_none_iff (same_test domain)).1 hsame
    cases hbelow : names.find? fun name =>
        (.scalar '.' :: domain.lower.dropFinalDots).isSuffixOf name.lower with
    | some name =>
      exact ⟨name, .below noneSame ((find?_eq_some_iff_isFirst (below_test domain)).1 hbelow)⟩
    | none =>
      have noneBelow := (find?_eq_none_iff (below_test domain)).1 hbelow
      exact ⟨names.head h, .other noneSame noneBelow (List.head?_eq_some_head h)⟩

theorem isPreferred_iff (h : names ≠ []) :
    IsPreferred domain names name ↔ choose names domain = name := by
  constructor
  · exact IsPreferred.choose_eq
  · rintro rfl
    obtain ⟨name, hname⟩ := exists_isPreferred h domain
    rwa [hname.choose_eq]

/-- The choice looks at the domain only as names are compared with it. -/
theorem choose_congr_target {other : Text} (h : target other = target domain) (names : List Text) :
    choose names other = choose names domain := by
  unfold target at h
  unfold choose
  rw [h]

/-- A name that is neither the domain nor below it is passed over after any other name. -/
theorem choose_append_cons (hbefore : before ≠ []) (hsame : ¬ IsSame domain name)
    (hbelow : ¬ IsBelow domain name) (after : List Text) :
    choose (before ++ name :: after) domain = choose (before ++ after) domain := by
  obtain ⟨first, before, rfl⟩ := List.exists_cons_of_ne_nil hbefore
  unfold choose
  simp only [find?_append_cons_of_not (same_test domain) hsame,
    find?_append_cons_of_not (below_test domain) hbelow]
  rfl

/-- The name that is chosen is one of the names, and the one that is preferred; where there is none,
the client is unknown.  The choice is the same for all domains that names are compared with in the
same way.  Names that follow one that is the domain do not matter, nor does a name that only looks
like one below the domain, unless it is the first. -/
theorem choose_exact (names : List Text) (domain : Text) :
    choose [] domain = unknown ∧
    (names ≠ [] → choose names domain ∈ names ∧
      ∀ name, IsPreferred domain names name ↔ choose names domain = name) ∧
    (∀ other, target other = target domain → choose names other = choose names domain) ∧
    (∀ more, (∃ name ∈ names, IsSame domain name) →
      choose (names ++ more) domain = choose names domain) ∧
    (names ≠ [] → IsLookAlike domain (choose names domain) →
      names.head? = some (choose names domain)) ∧
    ∀ before name after, names = before ++ name :: after → before ≠ [] →
      IsLookAlike domain name → choose names domain = choose (before ++ after) domain := by
  refine ⟨rfl, ?_, ?_, ?_, ?_, ?_⟩
  · intro hnames
    exact ⟨choose_mem hnames domain, fun name => isPreferred_iff hnames⟩
  · intro other hother
    exact choose_congr_target hother names
  · rintro more ⟨name, hname, hsame⟩
    obtain ⟨chosen, hchosen⟩ := exists_isPreferred (List.ne_nil_of_mem hname) domain
    cases hchosen with
    | same first => rw [choose_of_same first, choose_of_same (first.append more)]
    | below noneSame first => exact absurd hsame (noneSame name hname)
    | other noneSame noneBelow first => exact absurd hsame (noneSame name hname)
  · rintro hnames ⟨-, hsame, hbelow⟩
    cases (isPreferred_iff hnames).2 rfl with
    | same first => exact absurd first.1 hsame
    | below noneSame first => exact absurd first.1 hbelow
    | other noneSame noneBelow first => exact first
  · rintro before name after rfl hbefore ⟨-, hsame, hbelow⟩
    exact choose_append_cons hbefore hsame hbelow after

/-- A name that ends in the domain without a dot before it is passed over for one below the domain,
and this for the domain itself, whose letters stay as they are. -/
theorem choose_exact_look_alike :
    let names : List Text := ["host.other", "badexample.com", "Mail.Example.com", "EXAMPLE.com"]
    choose names "example.COM." = ("EXAMPLE.com" : Text) ∧
      IsPreferred "example.COM." names "EXAMPLE.com" ∧
      IsLookAlike "example.COM." "badexample.com" ∧
      choose (names.take 3) "example.COM." = choose ["host.other", "Mail.Example.com"]
        "example.COM." ∧
      choose (names ++ [("example.com" : Text)]) "Example.com" = choose names "Example.com" := by
  intro names
  have hchosen : choose names "example.COM." = ("EXAMPLE.com" : Text) := by decide
  have hlooks : IsLookAlike "example.COM." "badexample.com" := by
    unfold IsLookAlike IsSame IsBelow
    decide
  obtain ⟨-, hpreferred, -, happend, -⟩ := choose_exact names "example.COM."
  obtain ⟨-, -, -, -, -, hpassed⟩ := choose_exact (names.take 3) "example.COM."
  refine ⟨hchosen, ((hpreferred (List.cons_ne_nil _ _)).2 _).2 hchosen, hlooks, ?_, ?_⟩
  · exact hpassed ["host.other"] "badexample.com" ["Mail.Example.com"] rfl
      (List.cons_ne_nil _ _) hlooks
  · obtain ⟨-, -, -, hmore, -⟩ := choose_exact names "Example.com"
    exact hmore _ ⟨"EXAMPLE.com", by decide, by unfold IsSame; decide⟩

end SenderPolicy.ValidatedName
