import Mathlib.Data.List.TakeWhile
import SenderPolicy.Proofs.Dns.Labels
import SenderPolicy.Proofs.Dns.Presentation
import SenderPolicy.Proofs.Expansion.Pieces

/-! Expansion of domain specifications.  An expanded domain loses the dots at its end, and then
labels on its left, one by one.  The loop that drops them stops at the longest rest that fits, or at
the last label where none does, and in that case the domain is rejected. -/

namespace SenderPolicy

open SenderPolicy.Action

namespace Text

/-- A text without its final dots has lost nothing but dots, and it does not end in one. -/
theorem dropFinalDots_spec (t : Text) :
    (∃ n, t = t.dropFinalDots ++ List.replicate n (Character.scalar '.')) ∧
      t.dropFinalDots.getLast? ≠ some (.scalar '.') := by
  obtain ⟨dots, hwhole, hdots⟩ := exists_dropTrailing_append (· == '.') t
  have hdots : dots = List.replicate dots.length (Character.scalar '.') :=
    List.eq_replicate_iff.2 ⟨rfl, by simpa using hdots⟩
  rw [hdots] at hwhole
  exact ⟨⟨_, hwhole⟩, getLast?_dropFinalDots t⟩

/-- What stands before a dot has no part in the last label. -/
theorem afterLast_append_dot (front tail : Text) :
    (front ++ .scalar '.' :: tail).afterLast '.' = tail.afterLast '.' := by
  rw [afterLast, afterLast, List.reverse_append, List.reverse_cons, List.append_assoc,
    List.takeWhile_append]
  split
  · next hall =>
    have hlabel : tail.reverse.takeWhile (· != Character.scalar '.') = tail.reverse :=
      List.IsPrefix.eq_of_length (List.takeWhile_prefix _) hall
    rw [hlabel]
    simp
  · rfl

end Text

namespace Expander

/-! ### What follows the dots of a domain -/

/-- What the labels of a domain leave when some of them, from the left, are dropped: the domain
itself, or what follows one of its dots. -/
def IsTail (domain tail : Text) : Prop :=
  tail = domain ∨ ∃ front, domain = front ++ .scalar '.' :: tail

theorem afterDot?_eq_none_iff {t : Text} : afterDot? t = none ↔ Character.scalar '.' ∉ t := by
  induction t with
  | nil => simp [afterDot?]
  | cons c t ih =>
    rw [afterDot?]
    split
    · next hc => simp [hc]
    · next hc => simp [ih, Ne.symm hc]

theorem exists_label_of_afterDot? {t rest : Text} (h : afterDot? t = some rest) :
    ∃ label, Character.scalar '.' ∉ label ∧ t = label ++ .scalar '.' :: rest := by
  induction t with
  | nil => cases h
  | cons c t ih =>
    rw [afterDot?] at h
    split at h
    · next hc =>
      obtain rfl := Option.some.inj h
      exact ⟨[], by simp, by rw [hc]; rfl⟩
    · next hc =>
      obtain ⟨label, hlabel, rfl⟩ := ih h
      exact ⟨c :: label, by simp [hlabel, Ne.symm hc], rfl⟩

theorem IsTail.eq_of_no_dot {domain tail : Text} (h : IsTail domain tail)
    (hdot : Character.scalar '.' ∉ domain) :
    tail = domain := by
  rcases h with rfl | ⟨front, rfl⟩
  · rfl
  · simp at hdot

/-- A domain is left whole, or at least its first label is dropped. -/
theorem isTail_iff_of_afterDot? {domain rest tail : Text} (h : afterDot? domain = some rest) :
    IsTail domain tail ↔ tail = domain ∨ IsTail rest tail := by
  obtain ⟨label, hlabel, rfl⟩ := exists_label_of_afterDot? h
  refine or_congr_right ⟨?_, ?_⟩
  · rintro ⟨front, hfront⟩
    rcases List.append_eq_append_iff.1 hfront with ⟨as, -, hrest⟩ | ⟨bs, hbs, hrest⟩
    · rcases as with _ | ⟨c, as⟩
      · exact .inl (List.cons.inj hrest).2.symm
      · exact .inr ⟨as, (List.cons.inj hrest).2⟩
    · rcases bs with _ | ⟨c, bs⟩
      · exact .inl (List.cons.inj hrest).2
      · obtain rfl : '.' = c := (List.cons.inj hrest).1
        simp [hbs] at hlabel
  · rintro (rfl | ⟨front, rfl⟩)
    · exact ⟨label, rfl⟩
    · exact ⟨label ++ .scalar '.' :: front, by simp⟩

theorem IsTail.isSuffix {domain tail : Text} (h : IsTail domain tail) : tail <:+ domain := by
  rcases h with rfl | ⟨front, rfl⟩
  · exact List.suffix_rfl
  · exact ⟨front ++ [.scalar '.'], by simp⟩

/-- The parts of a tail between dots are the last ones of the domain. -/
theorem IsTail.splitOn_isSuffix {domain tail : Text} (h : IsTail domain tail) :
    tail.splitOn (.scalar '.') <:+ domain.splitOn (.scalar '.') := by
  rcases h with rfl | ⟨front, rfl⟩
  · exact List.suffix_rfl
  · have hsplit : (front ++ .scalar '.' :: tail).splitOn (.scalar '.') =
        front.splitOn (.scalar '.') ++ tail.splitOn (.scalar '.') :=
      List.splitOnP_append_cons front tail (by simp)
    rw [hsplit]
    exact List.suffix_append _ _

/-- The labels of a tail are the last ones of the domain, unless it follows an escaped dot. -/
theorem IsTail.labels_isSuffix_iff {domain tail : Text} (h : IsTail domain tail) :
    tail.labels <:+ domain.labels ↔
      ∀ front, domain = front ++ .scalar '.' :: tail → front.endsInEscape = false := by
  rcases h with rfl | ⟨front, rfl⟩
  · refine iff_of_true List.suffix_rfl fun front hwhole => ?_
    have hlength := congrArg List.length hwhole
    simp only [List.length_append, List.length_cons] at hlength
    omega
  · rw [Text.labels_isSuffix_iff]
    refine ⟨fun h other hwhole => ?_, fun h => h front rfl⟩
    rwa [← List.append_cancel_right hwhole]

/-- The last label is the shortest tail. -/
theorem isTail_afterLast (domain : Text) : IsTail domain (domain.afterLast '.') := by
  by_cases hdot : Character.scalar '.' ∈ domain
  · exact .inr ⟨_, (Text.beforeLast_append_afterLast hdot).symm⟩
  · left
    rw [Text.afterLast, List.takeWhile_eq_self_iff.2 (Text.bne_of_mem_reverse hdot),
      List.reverse_reverse]

theorem IsTail.length_afterLast_le {domain tail : Text} (h : IsTail domain tail) :
    (domain.afterLast '.').length ≤ tail.length := by
  have hlast : domain.afterLast '.' = tail.afterLast '.' := by
    rcases h with rfl | ⟨front, rfl⟩
    · rfl
    · exact Text.afterLast_append_dot front tail
  rw [hlast]
  exact (isTail_afterLast tail).isSuffix.length_le

/-! ### The loop -/

section

variable {limit? : Option Int} {domain rest tail : Text}

theorem fits_of_length_le {t u : Text} (h : fits limit? u = true) (hle : t.length ≤ u.length) :
    fits limit? t = true := by
  cases limit? with
  | none => rfl
  | some limit =>
    simp only [fits, decide_eq_true_eq] at h ⊢
    omega

theorem shorten_of_fits (h : fits limit? domain = true) : shorten limit? domain = domain := by
  rw [shorten, if_pos h]

theorem shorten_of_no_dot (h : Character.scalar '.' ∉ domain) : shorten limit? domain = domain := by
  have hnone : afterDot? domain = none := afterDot?_eq_none_iff.2 h
  rw [shorten]
  split
  · rfl
  · split
    · rfl
    · simp_all

theorem shorten_of_afterDot? (h : fits limit? domain = false)
    (hrest : afterDot? domain = some rest) : shorten limit? domain = shorten limit? rest := by
  rw [shorten, if_neg (by simp [h])]
  split
  · simp_all
  · simp_all

/-- The loop leaves a tail.  If that fits, then no tail that fits is longer, and otherwise no tail
fits. -/
theorem shorten_spec (limit? : Option Int) (domain : Text) :
    IsTail domain (shorten limit? domain) ∧
      ∀ tail, IsTail domain tail → fits limit? tail = true →
        fits limit? (shorten limit? domain) = true ∧
          tail.length ≤ (shorten limit? domain).length := by
  induction domain using shorten.induct limit? with
  | case1 domain hfits =>
    rw [shorten_of_fits hfits]
    exact ⟨.inl rfl, fun tail htail _ => ⟨hfits, htail.isSuffix.length_le⟩⟩
  | case2 domain hfits hnone =>
    have hdot : Character.scalar '.' ∉ domain := afterDot?_eq_none_iff.1 hnone
    rw [shorten_of_no_dot hdot]
    refine ⟨.inl rfl, fun tail htail htailFits => ?_⟩
    rw [htail.eq_of_no_dot hdot] at htailFits
    exact absurd htailFits hfits
  | case3 domain hfits rest hrest ih =>
    rw [shorten_of_afterDot? (by simpa using hfits) hrest]
    refine ⟨(isTail_iff_of_afterDot? hrest).2 (.inr ih.1), fun tail htail htailFits => ?_⟩
    rcases (isTail_iff_of_afterDot? hrest).1 htail with rfl | htail
    · exact absurd htailFits hfits
    · exact ih.2 tail htail htailFits

theorem fits_shorten_iff :
    fits limit? (shorten limit? domain) = true ↔ fits limit? (domain.afterLast '.') = true := by
  obtain ⟨htail, hlongest⟩ := shorten_spec limit? domain
  constructor
  · intro h
    exact fits_of_length_le h htail.length_afterLast_le
  · intro h
    exact (hlongest _ (isTail_afterLast domain) h).1

end

/-- The longest tail of a domain that has at most `limit` characters. -/
structure IsLongestTail (limit : Int) (domain tail : Text) : Prop where
  isTail : IsTail domain tail
  length_le : tail.length ≤ limit
  longest : ∀ other, IsTail domain other → other.length ≤ limit → other.length ≤ tail.length

theorem IsLongestTail.unique {limit : Int} {domain tail other : Text}
    (h : IsLongestTail limit domain tail) (hother : IsLongestTail limit domain other) :
    other = tail := by
  have hlength : other.length = tail.length :=
    le_antisymm (h.longest other hother.isTail hother.length_le)
      (hother.longest tail h.isTail h.length_le)
  exact (List.suffix_of_suffix_length_le hother.isTail.isSuffix h.isTail.isSuffix
    hlength.le).eq_of_length hlength

theorem isLongestTail_shorten {limit : Int} {domain : Text}
    (h : (domain.afterLast '.').length ≤ limit) :
    IsLongestTail limit domain (shorten (some limit) domain) := by
  have hfits : fits (some limit) (shorten (some limit) domain) = true :=
    fits_shorten_iff.2 (by simpa [fits] using h)
  obtain ⟨htail, hlongest⟩ := shorten_spec (some limit) domain
  refine ⟨htail, by simpa [fits] using hfits, fun other hother hlength => ?_⟩
  exact (hlongest other hother (by simpa [fits] using hlength)).2

/-- A tail that is not the domain itself ends like the domain, unless it is empty. -/
theorem IsTail.getLast?_ne {domain tail : Text} (h : IsTail domain tail)
    (hdomain : domain.getLast? ≠ some (.scalar '.')) : tail.getLast? ≠ some (.scalar '.') := by
  obtain ⟨front, rfl⟩ := h.isSuffix
  intro hlast
  exact hdomain (by rw [List.getLast?_append, hlast]; rfl)

/-! ### The expansion -/

/-- What is logged of a domain that has lost labels. -/
def shortening (domain rest : Text) : List LogEntry :=
  if rest = domain then []
  else [⟨.expander, .debug, "Shortened expanded domain " ++ domain ++ " to " ++ rest⟩]

/-- How a domain that no dropping of labels makes short enough is rejected: as malformed, or for the
limit that the message has to tell, where that has too many digits to write. -/
def longDomain (value : Text) (limit? : Option Text) : Failure :=
  match limit? with
  | some limit => .expansion { cause := .tooLong limit, value }
  | none => .longNumber

/-- The result is what the loop leaves, if that fits. -/
theorem exec_expandDomainSpec_of_limit {x : Expander} {session : Session} {value w : Text}
    {limit? : Option Int} {e : Environment} {s after : State}
    (hlimit : x.tuning.domainLength? = .ok limit?)
    (h : exec (x.expand session value Letter.domainSpecChars) e s = (.ok w, after)) :
    exec (x.expandDomainSpec session value) e s =
      if fits limit? (shorten limit? w.dropFinalDots) then
        (.ok (shorten limit? w.dropFinalDots),
          { after with trace := after.trace ++
            (shortening w.dropFinalDots (shorten limit? w.dropFinalDots)).map .log })
      else (.error (longDomain value x.tuning.lengthText?), after) := by
  rw [expandDomainSpec, exec_bind, h]
  simp only [hlimit]
  generalize shorten limit? w.dropFinalDots = rest
  by_cases hfits : fits limit? rest = true
  · simp only [hfits, Bool.not_true, Bool.false_eq_true, if_false, if_true]
    by_cases hrest : rest = w.dropFinalDots
    · rw [if_neg (not_not.2 hrest), shortening, if_pos hrest, List.map_nil, List.append_nil,
        exec_pure]
    · rw [if_pos hrest, exec_bind, exec_log, shortening, if_neg hrest]
      rfl
  · simp only [hfits, Bool.not_false, if_true]
    cases x.tuning.lengthText? <;> rfl

theorem exec_expandDomainSpec_of_ok {x : Expander} {session : Session} {value w : Text}
    {limit : Int} {e : Environment} {s after : State}
    (hlimit : x.tuning.maxDomainLength = .integer limit)
    (h : exec (x.expand session value Letter.domainSpecChars) e s = (.ok w, after)) :
    exec (x.expandDomainSpec session value) e s =
      if fits (some limit) (shorten (some limit) w.dropFinalDots) then
        (.ok (shorten (some limit) w.dropFinalDots),
          { after with trace := after.trace ++
            (shortening w.dropFinalDots (shorten (some limit) w.dropFinalDots)).map .log })
      else (.error (longDomain value (Text.ofInt? limit)), after) := by
  have hdomain : x.tuning.domainLength? = .ok (some limit) := by
    rw [Tuning.domainLength?, hlimit]
  have htext : x.tuning.lengthText? = Text.ofInt? limit := by
    rw [Tuning.lengthText?, hlimit]
  rw [exec_expandDomainSpec_of_limit hdomain h, htext]

/-- If the inner expansion fails, so does that of the domain specification, with the same failure.
Otherwise its text loses the dots at its end, and then the result is the longest tail that has at
most `limit` characters, of which the labels are those of the domain unless it follows a dot that is
escaped; the string is rejected exactly if what follows its last dot has more.  It is rejected as
malformed, unless `limit` is a number that has too many digits to write, in which case the message
cannot be told and the failure is another one. -/
theorem expandDomainSpec_longest (x : Expander) (session : Session) (value : Text) (limit : Int)
    (hlimit : x.tuning.maxDomainLength = .integer limit) (e : Environment) (s : State) :
    (∀ failure after,
      exec (x.expand session value Letter.domainSpecChars) e s = (.error failure, after) →
      exec (x.expandDomainSpec session value) e s = (.error failure, after)) ∧
    ∀ w after, exec (x.expand session value Letter.domainSpecChars) e s = (.ok w, after) →
      let domain := w.dropFinalDots
      (∃ n, w = domain ++ List.replicate n (Character.scalar '.')) ∧
      domain.getLast? ≠ some (.scalar '.') ∧
      (limit < (domain.afterLast '.').length →
        ∃ failure, exec (x.expandDomainSpec session value) e s = (.error failure, after) ∧
          (limit.natAbs < Text.leastUnwritten →
            failure = .expansion { cause := .tooLong (Text.ofInt limit), value } ∧
            failure.kind = .malformed) ∧
          (Text.leastUnwritten ≤ limit.natAbs →
            failure = .longNumber ∧ failure.kind = .badValue)) ∧
      ((domain.afterLast '.').length ≤ limit →
        ∃ tail, exec (x.expandDomainSpec session value) e s = (.ok tail,
            { after with trace := after.trace ++ (shortening domain tail).map .log }) ∧
          (∀ other, IsLongestTail limit domain other ↔ other = tail) ∧
          tail.getLast? ≠ some (.scalar '.') ∧ (domain.length ≤ limit → tail = domain) ∧
          tail.splitOn (.scalar '.') <:+ domain.splitOn (.scalar '.') ∧
          (tail.labels <:+ domain.labels ↔
            ∀ front, domain = front ++ .scalar '.' :: tail → front.endsInEscape = false)) := by
  constructor
  · intro failure after h
    rw [expandDomainSpec, exec_bind, h]
  · intro w after h domain
    have hrun := exec_expandDomainSpec_of_ok hlimit h
    change _ = if fits (some limit) (shorten (some limit) domain) then _ else _ at hrun
    obtain ⟨hdots, hlast⟩ := Text.dropFinalDots_spec w
    refine ⟨hdots, hlast, ?_, ?_⟩
    · intro hlong
      have hfits : ¬ fits (some limit) (shorten (some limit) domain) = true := by
        rw [fits_shorten_iff]
        simpa [fits] using hlong
      rw [if_neg hfits] at hrun
      refine ⟨_, hrun, fun hwritten => ?_, fun hwritten => ?_⟩
      · rw [Text.ofInt?_of_lt hwritten]
        exact ⟨rfl, rfl⟩
      · rw [Text.ofInt?_of_le hwritten]
        exact ⟨rfl, rfl⟩
    · intro hshort
      have hlongest := isLongestTail_shorten hshort
      have hfits : fits (some limit) (shorten (some limit) domain) = true := by
        simpa [fits] using hlongest.length_le
      rw [if_pos hfits] at hrun
      refine ⟨_, hrun, ?_, hlongest.isTail.getLast?_ne hlast, ?_,
        hlongest.isTail.splitOn_isSuffix, hlongest.isTail.labels_isSuffix_iff⟩
      · intro other
        constructor
        · exact hlongest.unique
        · rintro rfl
          exact hlongest
      · intro hwhole
        exact shorten_of_fits (by simpa [fits] using hwhole)

/-- A session whose domain has an empty label. -/
def gapSession : Session where
  sender := "a@b.c"
  currentDomain := "a..b"
  client := .v4 #v[192, 0, 2, 7]
  heloDomain := none
  receivingHost := none
  timestamp := 1

/-- The dot before the last label stays, as it follows an empty label. -/
theorem expandDomainSpec_longest_gap :
    let x : Expander := ⟨.ofSettings { maxDomainLength := 2 }, ⟨.memory, []⟩⟩
    let e : Environment := ⟨.empty, .ok {}, Clock.zero, .documented⟩
    x.tuning.maxDomainLength = .integer 2 ∧
      exec (x.expand gapSession "%\x7bd\x7d.." Letter.domainSpecChars) e {} =
        (.ok ("a..b.." : Text), {}) ∧
      (exec (x.expandDomainSpec gapSession "%\x7bd\x7d..") e {}).1 = .ok (".b" : Text) := by
  intro x e
  have hlimit : x.tuning.maxDomainLength = .integer 2 := rfl
  have hexpand : exec (x.expand gapSession "%\x7bd\x7d.." Letter.domainSpecChars) e {} =
      (.ok ("a..b.." : Text), {}) := rfl
  refine ⟨hlimit, hexpand, ?_⟩
  obtain ⟨-, -, -, hshort⟩ :=
    (expandDomainSpec_longest x gapSession "%\x7bd\x7d.." 2 hlimit e {}).2 _ _ hexpand
  obtain ⟨tail, hrun, hlongest, -⟩ := hshort (by decide)
  have htail : IsLongestTail 2 ("a..b" : Text) (".b" : Text) :=
    ⟨.inr ⟨("a" : Text), rfl⟩, by decide, fun other _ hlength => Int.ofNat_le.1 hlength⟩
  rw [hrun, (hlongest (".b" : Text)).1 htail]

/-- A session whose client has the name `a\x5c.b.example`, of the two labels `a.b` and `example`. -/
def dottedLabelSession : Session := { gapSession with currentDomain := "example" }

def dottedLabelZone : Zone :=
  { Zone.empty with
    pointers := Zone.replace Zone.empty.pointers "7.2.0.192.in-addr.arpa"
      (.answer [.ofStrings ["a.b", "example"]])
    ipv4Hosts := Zone.replace Zone.empty.ipv4Hosts "a\x5c.b.example"
      (.answer ⟨["192.0.2.7"], some (.integer 300)⟩) }

/-- A name that is too long is cut inside its first label, where that holds a dot.  And with a limit
of too many digits, a domain that is too long is not rejected as malformed. -/
theorem expandDomainSpec_cuts_label :
    let x (limit : Int) : Expander := ⟨.ofSettings { maxDomainLength := limit }, ⟨.memory, []⟩⟩
    let e : Environment := ⟨dottedLabelZone, .ok {}, Clock.zero, .documented⟩
    (exec ((x 9).expand dottedLabelSession "%\x7bp\x7d" Letter.domainSpecChars) e {}).1 =
        .ok ("a\x5c.b.example" : Text) ∧
      (exec ((x 9).expandDomainSpec dottedLabelSession "%\x7bp\x7d") e {}).1 =
        .ok ("b.example" : Text) ∧
      ¬ Text.labels "b.example" <:+ Text.labels "a\x5c.b.example" ∧
      (exec ((x (-Text.leastUnwritten)).expandDomainSpec gapSession "b") e {}).1 =
        .error .longNumber ∧
      Failure.longNumber.kind ≠ .malformed := by
  intro x e
  refine ⟨by decide +kernel, by decide +kernel, by decide, ?_, nofun⟩
  have hexpand : exec
      ((x (-Text.leastUnwritten)).expand gapSession "b" Letter.domainSpecChars) e {} =
      (.ok ("b" : Text), {}) := rfl
  have hlimit : (x (-Text.leastUnwritten)).tuning.maxDomainLength =
      .integer (-(Text.leastUnwritten : Int)) := rfl
  have hfits : ¬ fits (some (-(Text.leastUnwritten : Int)))
      (shorten (some (-(Text.leastUnwritten : Int))) ("b" : Text)) = true := by
    rw [fits_shorten_iff]
    simp only [fits, decide_eq_true_eq]
    have hlast : (Text.afterLast '.' ("b" : Text)).length = 1 := rfl
    rw [hlast]
    omega
  have hwritten : Text.ofInt? (-(Text.leastUnwritten : Int)) = none :=
    Text.ofInt?_of_le (by rw [Int.natAbs_neg, Int.natAbs_natCast])
  rw [exec_expandDomainSpec_of_ok hlimit hexpand, hwritten]
  exact congrArg Prod.fst (if_neg hfits)

end Expander

end SenderPolicy
