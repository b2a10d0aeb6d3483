import SenderPolicy.Proofs.Expansion.DomainSpec
import SenderPolicy.Proofs.Expansion.Rejection
import SenderPolicy.Proofs.Expansion.Verbatim
import SenderPolicy.Proofs.MacroString.Restriction

/-! Expansion of what has been expanded.  An expansion holds the characters of its literal text, of
the values of its letters, and the dots between parts.  So where none of these brings in a percent
sign the result holds none, and it is a macro string that stands for itself.  A domain is as short
as it has to be after the first time, so it is left as it is too. -/

namespace SenderPolicy

open SenderPolicy.Action

/-! ### Characters of transformed values -/

namespace Transformation

variable {m : Transformation} {value part : Text} {c : Character}

/-- A value that is transformed without being encoded gains nothing but dots. -/
theorem mem_of_mem_transform? {text : Text} (hdelimiters : m.delimiters ≠ [])
    (hplain : m.urlEncode = false) (h : m.transform? value = .ok text) (hc : c ∈ text) :
    c = '.' ∨ c ∈ value := by
  rw [transform?_eq_ite hdelimiters, hplain, if_neg Bool.false_ne_true] at h
  obtain rfl := Except.ok.inj h
  rcases Text.mem_join hc with hdot | ⟨part, hpart, hc⟩
  · exact .inl hdot
  · exact .inr (mem_of_mem_selected hpart hc)

end Transformation

/-! ### Strings that bring in no percent sign -/

namespace MacroString

variable {letters : List Character} {items : List (Item letters)} {pieces : List Piece}

/-- A value writes no percent sign if none of its escapes stands for one or for a space in
percent-encoding, and none of its macros has a capital letter, which asks for percent-encoding. -/
structure WritesNoPercent (value : Text) : Prop where
  no_percent : ¬ (['%', '%'] : Text) <:+: value
  no_dash : ¬ (['%', '-'] : Text) <:+: value
  no_capital : ∀ c : Character, (['%', '{', c] : Text) <:+: value → c.isUpper = false

/-- An item that stands for no percent sign, and for no value that is encoded. -/
def Item.AddsNoPercent : Item letters → Prop
  | .plain _ _ => True
  | .escape e => e = .underscore
  | .expression x => x.written.isUpper = false

theorem text_infix_written {item : Item letters} (h : item ∈ items) :
    item.text <:+: written items := by
  obtain ⟨before, after, rfl⟩ := List.append_of_mem h
  refine ⟨written before, written after, ?_⟩
  simp only [written, List.flatMap_append, List.flatMap_cons, List.append_assoc]

theorem WritesNoPercent.addsNoPercent (h : WritesNoPercent (written items)) {item : Item letters}
    (hitem : item ∈ items) : item.AddsNoPercent := by
  have htext := text_infix_written hitem
  cases item with
  | plain c hc => trivial
  | escape e =>
    cases e with
    | percent => exact absurd htext h.no_percent
    | underscore => rfl
    | dash => exact absurd htext h.no_dash
  | expression x =>
    have hopening : (['%', '{', x.written] : Text) <:+: x.text :=
      ⟨[], x.digits ++ (x.mark.toList ++ x.run) ++ [.scalar '}'], rfl⟩
    exact h.no_capital x.written (hopening.trans htext)

theorem Item.AddsNoPercent.not_mem_literal {item : Item letters} (h : item.AddsNoPercent) :
    Character.scalar '%' ∉ item.literal := by
  cases item with
  | plain c hc => simpa [literal] using hc.symm
  | escape e =>
    have hspace : e = .underscore := h
    subst hspace
    change Character.scalar '%' ∉ (" " : Text)
    decide
  | expression x =>
    intro hc
    cases hc

theorem Denotes.not_mem_literal (h : Denotes items pieces)
    (hitems : ∀ item ∈ items, item.AddsNoPercent) :
    ∀ text, .literal text ∈ pieces → Character.scalar '%' ∉ text := by
  induction h with
  | nil => nofun
  | token h ih =>
    intro text htext
    rcases List.mem_cons.1 htext with heq | htext
    · cases heq
    · exact ih (fun item hitem => hitems item (List.mem_cons_of_mem _ hitem)) text htext
  | literal run hne hrun hrest h ih =>
    intro text htext
    rcases List.mem_cons.1 htext with heq | htext
    · obtain rfl := Piece.literal.inj heq
      intro hmem
      obtain ⟨item, hitem, hc⟩ := List.mem_flatMap.1 hmem
      exact (hitems item (List.mem_append_left _ hitem)).not_mem_literal hc
    · exact ih (fun item hitem => hitems item (List.mem_append_right _ hitem)) text htext

/-- The pieces of a value that writes no percent sign. -/
theorem WritesNoPercent.scan {value : Text} (h : WritesNoPercent value)
    (hscan : MacroString.scan letters value = .ok pieces) :
    (∀ text, .literal text ∈ pieces → Character.scalar '%' ∉ text) ∧
      ∀ token : Token, .token token ∈ pieces → token.urlEncode = false := by
  obtain ⟨items, rfl⟩ := exists_items_of_scan hscan
  have hitems : ∀ item ∈ items, item.AddsNoPercent := fun _ => h.addsNoPercent
  rw [scan_written] at hscan
  obtain rfl := Except.ok.inj hscan
  refine ⟨(denotes_fuse items).not_mem_literal hitems, ?_⟩
  intro token htoken
  obtain ⟨item, hitem, hpiece⟩ := List.mem_map.1 ((token_mem_fuse _).1 htoken)
  cases item with
  | expression x =>
    obtain rfl := Piece.token.inj hpiece
    exact hitems _ hitem
  | plain c hc => cases hpiece
  | escape e => cases hpiece

end MacroString

namespace Expander

open MacroString (WritesNoPercent)

variable {x : Expander} {session : Session} {letters : List Character} {value r text : Text}
  {pieces : List Piece} {e : Environment} {s after : State} {c : Character}

/-! ### Characters of expansions -/

/-- The values of the macros among some pieces, in order, up to the first letter that fails. -/
def values (x : Expander) (session : Session) (e : Environment) : List Piece → State → List Text
  | [], _ => []
  | .literal _ :: pieces, s => x.values session e pieces s
  | .token token :: pieces, s =>
    match exec (x.resolve session token.letter) e s with
    | (.ok value, after) => value :: x.values session e pieces after
    | (.error _, _) => []

/-- The values that the letters of a macro string have where it is expanded. -/
def resolvedValues (x : Expander) (session : Session) (letters : List Character) (value : Text)
    (e : Environment) (s : State) : List Text :=
  match MacroString.scan letters value with
  | .ok pieces => x.values session e pieces s
  | .error _ => []

/-- An expansion holds nothing but dots, its literal text and the values of its letters. -/
theorem mem_of_expandPieces
    (hpieces : ∀ token : Token, .token token ∈ pieces →
      token.urlEncode = false ∧ token.delimiters ≠ [])
    (h : exec (x.expandPieces session pieces) e s = (.ok text, after)) (hc : c ∈ text) :
    c = '.' ∨ (∃ literal, .literal literal ∈ pieces ∧ c ∈ literal) ∨
      ∃ value ∈ x.values session e pieces s, c ∈ value := by
  induction pieces generalizing s text with
  | nil =>
    obtain rfl : [] = text := Except.ok.inj (congrArg Prod.fst h)
    cases hc
  | cons piece pieces ih =>
    have hlater := fun token htoken => hpieces token (List.mem_cons_of_mem _ htoken)
    cases piece with
    | literal first =>
      obtain ⟨later, hrest, rfl⟩ := exists_of_expandPieces_literal h
      rcases List.mem_append.1 hc with hc | hc
      · exact .inr (.inl ⟨first, List.mem_cons_self, hc⟩)
      · rcases ih hlater hrest hc with hdot | ⟨literal, hliteral, hc⟩ | hvalue
        · exact .inl hdot
        · exact .inr (.inl ⟨literal, List.mem_cons_of_mem _ hliteral, hc⟩)
        · exact .inr (.inr hvalue)
    | token token =>
      obtain ⟨hplain, hdelimiters⟩ := hpieces token List.mem_cons_self
      obtain ⟨raw, middle, first, later, hresolve, htransform, hrest, rfl⟩ :=
        exists_of_expandPieces_token h
      have hvalues : x.values session e (.token token :: pieces) s =
          raw :: x.values session e pieces middle := by
        rw [values, hresolve]
      rw [hvalues]
      rcases List.mem_append.1 hc with hc | hc
      · rcases Transformation.mem_of_mem_transform? hdelimiters hplain htransform hc with hdot | hc
        · exact .inl hdot
        · exact .inr (.inr ⟨raw, List.mem_cons_self, hc⟩)
      · rcases ih hlater hrest hc with hdot | ⟨literal, hliteral, hc⟩ | ⟨value, hvalue, hc⟩
        · exact .inl hdot
        · exact .inr (.inl ⟨literal, List.mem_cons_of_mem _ hliteral, hc⟩)
        · exact .inr (.inr ⟨value, List.mem_cons_of_mem _ hvalue, hc⟩)

/-- Where neither the string nor the values of its letters bring in a percent sign, there is none
in the result. -/
theorem percent_not_mem_of_expand (hvalue : WritesNoPercent value)
    (hvalues : ∀ text ∈ x.resolvedValues session letters value e s, Character.scalar '%' ∉ text)
    (h : exec (x.expand session value letters) e s = (.ok r, after)) :
    Character.scalar '%' ∉ r := by
  cases hscan : MacroString.scan letters value with
  | error fault =>
    rw [exec_expand_of_fault hscan] at h
    cases h
  | ok pieces =>
    obtain ⟨hliteral, htoken⟩ := hvalue.scan hscan
    rw [resolvedValues, hscan] at hvalues
    rw [expand_of_scan hscan] at h
    have hpieces (token : Token) (hmem : .token token ∈ pieces) :
        token.urlEncode = false ∧ token.delimiters ≠ [] :=
      ⟨htoken token hmem, MacroString.delimiters_ne_nil_of_scan hscan hmem⟩
    intro hpercent
    rcases mem_of_expandPieces hpieces h hpercent with hdot | ⟨text, htext, hc⟩ | ⟨text, htext, hc⟩
    · cases hdot
    · exact hliteral text htext hc
    · exact hvalues text htext hc

/-- A text without percent signs is a macro string that stands for itself. -/
theorem exec_expand_self (h : Character.scalar '%' ∉ r) (x : Expander) (session : Session)
    (letters : List Character)
    (e : Environment) (s : State) : exec (x.expand session r letters) e s = (.ok r, s) := by
  have hexpand : x.expand session (MacroString.doublePercents r) letters = pure r :=
    expand_doublePercents r
  rw [MacroString.doublePercents_of_not_mem h] at hexpand
  rw [hexpand, exec_pure]

/-! ### Domains -/

/-- A domain that is returned is what the loop leaves, and it fits. -/
theorem exists_of_expandDomainSpec
    (h : exec (x.expandDomainSpec session value) e s = (.ok r, after)) :
    ∃ w middle limit?,
      exec (x.expand session value Letter.domainSpecChars) e s = (.ok w, middle) ∧
      x.tuning.domainLength? = .ok limit? ∧ r = shorten limit? w.dropFinalDots ∧
      fits limit? r = true := by
  obtain ⟨w, middle, hexpand, hrest⟩ := exec_bind_eq_ok.1 h
  cases hlimit : x.tuning.domainLength? with
  | error fault => simp [hlimit] at hrest
  | ok limit? =>
    rw [exec_expandDomainSpec_of_limit hlimit hexpand] at h
    split at h
    · next hfits =>
      obtain rfl : _ = r := Except.ok.inj (congrArg Prod.fst h)
      exact ⟨w, middle, limit?, hexpand, rfl, rfl, hfits⟩
    · cases congrArg Prod.fst h

theorem percent_not_mem_of_expandDomainSpec (hvalue : WritesNoPercent value)
    (hvalues : ∀ text ∈ x.resolvedValues session Letter.domainSpecChars value e s,
      Character.scalar '%' ∉ text)
    (h : exec (x.expandDomainSpec session value) e s = (.ok r, after)) :
    Character.scalar '%' ∉ r := by
  obtain ⟨w, middle, limit?, hexpand, -, rfl, -⟩ := exists_of_expandDomainSpec h
  obtain ⟨⟨n, hw⟩, -⟩ := Text.dropFinalDots_spec w
  intro hpercent
  have htail := (shorten_spec limit? w.dropFinalDots).1.isSuffix.mem hpercent
  exact percent_not_mem_of_expand hvalue hvalues hexpand (hw ▸ List.mem_append_left _ htail)

/-- A domain that was returned without a percent sign is returned again, where the length that is
allowed is the same. -/
theorem exec_expandDomainSpec_self (hpercent : Character.scalar '%' ∉ r)
    (h : exec (x.expandDomainSpec session value) e s = (.ok r, after)) {other : Expander}
    (hlength : other.tuning.maxDomainLength = x.tuning.maxDomainLength) (another : Session)
    (e' : Environment) (s' : State) :
    exec (other.expandDomainSpec another r) e' s' = (.ok r, s') := by
  obtain ⟨w, middle, limit?, -, hlimit, hr, hfits⟩ := exists_of_expandDomainSpec h
  have hlimit : other.tuning.domainLength? = .ok limit? := by
    rw [← hlimit, Tuning.domainLength?, hlength]
    rfl
  have hlast : r.getLast? ≠ some (.scalar '.') := by
    rw [hr]
    exact (shorten_spec limit? _).1.getLast?_ne (Text.dropFinalDots_spec w).2
  have hself := exec_expand_self hpercent other another Letter.domainSpecChars e' s'
  rw [exec_expandDomainSpec_of_limit hlimit hself, Text.dropFinalDots_eq_self hlast,
    shorten_of_fits hfits, if_pos hfits, shortening, if_pos rfl, List.map_nil, List.append_nil]

end Expander

/-! ### Every manner of expansion -/

namespace Manner

open MacroString (WritesNoPercent)
open Expander (blank mailEnvironment mailExpander mailSession)

/-- What ends well in some manner is an expansion as it is, or it is the domain that a domain
specification stands for. -/
theorem expand_eq_ok_or (manner : Manner) :
    (∀ (x : Expander) (session : Session) (value : Text) (e : Environment) (s : State) (r : Text)
      (after : State), exec (manner.expand x session value) e s = (.ok r, after) ↔
        exec (x.expand session value manner.letters) e s = (.ok r, after)) ∨
    (manner.letters = Letter.domainSpecChars ∧
      ∀ (x : Expander) (session : Session) (value : Text) (e : Environment) (s : State) (r : Text)
        (after : State), exec (manner.expand x session value) e s = (.ok r, after) ↔
          exec (x.expandDomainSpec session value) e s = (.ok r, after)) := by
  cases manner with
  | free letters => exact .inl fun _ _ _ _ _ _ _ => Iff.rfl
  | domainSpec => exact .inr ⟨rfl, fun _ _ _ _ _ _ _ => Iff.rfl⟩
  | explanation => exact .inl fun _ _ _ _ _ _ _ => Iff.rfl
  | term qualifier mechanism =>
    by_cases hterm : (Term.mk qualifier mechanism []).isExplanation = true
    · left
      intro x session value e s r after
      rw [letters, if_pos hterm, expand, Expander.expandTerm, if_pos (by exact hterm)]
      exact Reporting.exec_guarded_eq_ok
    · right
      refine ⟨if_neg hterm, fun x session value e s r after => ?_⟩
      rw [expand, Expander.expandTerm, if_neg (by exact hterm)]
      exact Reporting.exec_guarded_eq_ok

/-- Where neither a string nor the values of its letters bring in a percent sign, what the string
expands to holds none, and it expands to itself: in any session, with any cache and with any data,
without a lookup, a look into the cache or an entry in the log.  A domain does so in its own manner
too, wherever the same length is allowed. -/
theorem expand_again (manner : Manner) (x : Expander) (session : Session) (value : Text)
    (hvalue : WritesNoPercent value) (e : Environment) (s : State)
    (hvalues : ∀ text ∈ x.resolvedValues session manner.letters value e s,
      Character.scalar '%' ∉ text)
    (r : Text) (after : State)
    (h : exec (manner.expand x session value) e s = (.ok r, after)) :
    Character.scalar '%' ∉ r ∧
    ∀ (other : Expander) (another : Session) (e' : Environment) (s' : State),
      (∀ letters, exec (other.expand another r letters) e' s' = (.ok r, s')) ∧
      (other.tuning.maxDomainLength = x.tuning.maxDomainLength →
        exec (manner.expand other another r) e' s' = (.ok r, s')) := by
  rcases expand_eq_ok_or manner with hplain | ⟨hletters, hdomain⟩
  · have hpercent : Character.scalar '%' ∉ r :=
      Expander.percent_not_mem_of_expand hvalue hvalues ((hplain ..).1 h)
    refine ⟨hpercent, fun other another e' s' => ⟨fun letters => ?_, fun _ => ?_⟩⟩
    · exact Expander.exec_expand_self hpercent other another letters e' s'
    · exact (hplain ..).2 (Expander.exec_expand_self hpercent other another _ e' s')
  · have h := (hdomain ..).1 h
    rw [hletters] at hvalues
    have hpercent : Character.scalar '%' ∉ r :=
      Expander.percent_not_mem_of_expandDomainSpec hvalue hvalues h
    refine ⟨hpercent, fun other another e' s' => ⟨fun letters => ?_, fun hlength => ?_⟩⟩
    · exact Expander.exec_expand_self hpercent other another letters e' s'
    · exact (hdomain ..).2 (Expander.exec_expandDomainSpec_self hpercent h hlength another e' s')

/-- A domain that loses its final dot and two labels is left as it is by another check, without the
lookup that it took at first. -/
theorem expand_again_shortened :
    let x : Expander := ⟨.ofSettings { maxDomainLength := 12 }, ⟨.memory, []⟩⟩
    let session := mailSession (.v4 #v[192, 0, 2, 1])
    let value : Text := "%\x7bp\x7d.%\x7bd\x7d."
    WritesNoPercent value ∧
      x.resolvedValues session Letter.domainSpecChars value mailEnvironment {} =
        [("mail.example" : Text), ("example" : Text)] ∧
      (exec (x.expandDomainSpec session value) mailEnvironment {}).1 = .ok ("example" : Text) ∧
      ∀ (another : Session) (s : State),
        exec (x.expandDomainSpec another "example") (blank {} .documented) s =
          (.ok ("example" : Text), s) := by
  intro x session value
  have hvalue : WritesNoPercent value := by
    refine ⟨by decide, by decide, fun c hc => ?_⟩
    have hsmall : ∀ c ∈ value, c.isUpper = false := by simp [value]
    exact hsmall c (hc.mem (by simp))
  have hvalues : x.resolvedValues session Letter.domainSpecChars value mailEnvironment {} =
      [("mail.example" : Text), ("example" : Text)] := by decide +kernel
  have hrun : (exec (x.expandDomainSpec session value) mailEnvironment {}).1 =
      .ok ("example" : Text) := by decide +kernel
  refine ⟨hvalue, hvalues, hrun, fun another s => ?_⟩
  have hpercents : ∀ text ∈ x.resolvedValues session Letter.domainSpecChars value mailEnvironment
      {}, Character.scalar '%' ∉ text := by
    rw [hvalues]
    decide
  obtain ⟨-, hagain⟩ := expand_again .domainSpec x session value hvalue mailEnvironment {}
    hpercents "example" _ (run_eq_ok hrun)
  exact (hagain x another (blank {} .documented) s).2 rfl

/-- A percent sign that an escape stands for is not left as it is. -/
example :
    let session := mailSession (.v4 #v[192, 0, 2, 1])
    (exec (mailExpander.expand session "%%_" Letter.allChars) mailEnvironment {}).1 =
        .ok ("%_" : Text) ∧
      (exec (mailExpander.expand session "%_" Letter.allChars) mailEnvironment {}).1 =
        .ok (" " : Text) := by
  decide +kernel

end Manner

end SenderPolicy
