import SenderPolicy.Proofs.Expansion.Pieces
import SenderPolicy.Proofs.MacroString.Concatenation
import SenderPolicy.Proofs.ValidatedName.Freshness

/-! Expansion of one string after another.  Two macro strings in one expand to what they expand to
one after the other, the second from the state that the first one leaves.  Where the second is no
macro string, nothing is looked up for the first. -/

namespace SenderPolicy.Expander

open SenderPolicy.Action

variable {x : Expander} {session : Session} {letters : List Character} {a b : Text}
  {pieces others : List Piece}

/-- The expansion of two macro strings in one is that of the first, and after it that of the
second. -/
theorem expand_append_eq (ha : MacroString.scan letters a = .ok pieces)
    (hb : MacroString.scan letters b = .ok others) :
    x.expand session (a ++ b) letters = do
      let text ← x.expand session a letters
      let later ← x.expand session b letters
      return text ++ later := by
  have happend : MacroString.scan letters (a ++ b) =
      .ok (MacroString.fuse (pieces ++ others)) := by
    rw [MacroString.scan_append ha, hb]
    rfl
  rw [expand_of_scan happend, expand_of_scan ha, expand_of_scan hb, expandPieces_fuse,
    expandPieces_append]

/-- After a macro string `a`, a macro string `b` is expanded on the state that `a` leaves, unless
`a` fails; and if `b` is no macro string, both are rejected, and nothing but that is logged. -/
theorem expand_append (x : Expander) (session : Session) (letters : List Character) (a b : Text)
    (ha : ∃ pieces, MacroString.scan letters a = .ok pieces) (e : Environment) (s : State) :
    ((∃ others, MacroString.scan letters b = .ok others) →
      (∀ text after, exec (x.expand session a letters) e s = (.ok text, after) →
        exec (x.expand session (a ++ b) letters) e s =
          ((exec (x.expand session b letters) e after).1.map (text ++ ·),
            (exec (x.expand session b letters) e after).2)) ∧
      ∀ failure after, exec (x.expand session a letters) e s = (.error failure, after) →
        exec (x.expand session (a ++ b) letters) e s = (.error failure, after)) ∧
    ∀ fault, MacroString.scan letters b = .error fault →
      exec (x.expand session (a ++ b) letters) e s =
        (.error (.ofScan (a ++ b) (fault.shift a.length)),
          { s with trace := s.trace ++
            (rejection (.ofScan (a ++ b) (fault.shift a.length))).map .log }) := by
  obtain ⟨pieces, ha⟩ := ha
  constructor
  · rintro ⟨others, hb⟩
    rw [expand_append_eq ha hb, exec_bind]
    constructor
    · intro text after hfirst
      rw [hfirst]
      simp only [exec_bind]
      rcases exec (x.expand session b letters) e after with ⟨_ | later, last⟩ <;> rfl
    · intro failure after hfirst
      rw [hfirst]
  · intro fault hb
    have happend : MacroString.scan letters (a ++ b) = .error (fault.shift a.length) := by
      rw [MacroString.scan_append ha, hb]
      rfl
    exact exec_expand_of_fault happend x session e s

/-- The session of a check of `a@example` for a client. -/
def mailSession (client : Address) : Session where
  sender := "a@example"
  currentDomain := "example"
  client
  heloDomain := none
  receivingHost := none
  timestamp := 1

/-- The validated name that the first string looks up is found in the cache for the second, even
where the data is gone by then; and no lookup is made if the second string ends too early. -/
theorem expand_append_mail :
    let x : Expander := ⟨.ofSettings {}, ⟨.memory, []⟩⟩
    let e : Environment := ⟨ValidatedName.mailZone, .ok {}, Clock.zero, .documented⟩
    let session := mailSession (.v4 #v[192, 0, 2, 1])
    let first := exec (x.expand session "%\x7bp\x7d%_" Letter.allChars) e {}
    first.1 = .ok ("mail.example " : Text) ∧
      (exec (x.expand session " %\x7bp1\x7d" Letter.allChars) { e with zone := .empty }
        first.2).1 = .ok (" example" : Text) ∧
      exec (x.expand session (("%\x7bp\x7d%_" : Text) ++ (" %\x7bp1\x7d" : Text)) Letter.allChars)
          e {} =
        ((exec (x.expand session " %\x7bp1\x7d" Letter.allChars) e first.2).1.map
          (("mail.example " : Text) ++ ·),
          (exec (x.expand session " %\x7bp1\x7d" Letter.allChars) e first.2).2) ∧
      (exec (x.expand session (("%\x7bp\x7d%_" : Text) ++ (" %\x7bp1" : Text)) Letter.allChars)
        e {}).2.store = [] := by
  intro x e session first
  have hfirst : first.1 = .ok ("mail.example " : Text) := by decide +kernel
  have hp : ∃ pieces, MacroString.scan Letter.allChars "%\x7bp\x7d%_" = .ok pieces := ⟨_, rfl⟩
  have happend := expand_append x session Letter.allChars "%\x7bp\x7d%_" " %\x7bp1\x7d" hp e {}
  have hreject := expand_append x session Letter.allChars "%\x7bp\x7d%_" " %\x7bp1" hp e {}
  refine ⟨hfirst, by decide +kernel, ?_, ?_⟩
  · have pair {run : Except Failure Text × State} {text : Text} (h : run.1 = .ok text) :
        run = (.ok text, run.2) := Prod.ext h rfl
    exact (happend.1 ⟨_, rfl⟩).1 _ first.2 (pair hfirst)
  · exact congrArg (fun run => run.2.store) (hreject.2 (.defect .unterminated 5) rfl)

end SenderPolicy.Expander
