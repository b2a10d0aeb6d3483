import SenderPolicy.Proofs.MacroString.Scanning
import SenderPolicy.Proofs.MacroString.Transformation
import SenderPolicy.Proofs.Text.Case

/-! What holds of every macro that scanning finds, whatever letters are allowed: its letter is
allowed, its count is positive and it has delimiters.  So every value is cut into parts, and at
least one of them is kept. -/

namespace SenderPolicy

/-- A macro whose letter is among some entries, whose count is positive and which has delimiters. -/
structure Token.IsWellFormed (entries : List Text) (token : Token) : Prop where
  letter_mem : [token.letter.char] ∈ entries
  one_le_truncation : ∀ n ∈ token.truncation, 1 ≤ n
  delimiters_ne_nil : token.delimiters ≠ []
  mem_delimiters : ∀ d ∈ token.delimiters, d ∈ (".-+,/_=" : Text)

namespace MacroString

variable {letters : List Character} {entries : List Text} {value : Text} {pieces : List Piece}
  {token : Token}

namespace Expression

theorem one_le_count (x : Expression letters) : ∀ n ∈ x.count, 1 ≤ n := by
  intro n hn
  unfold count at hn
  split at hn
  · cases hn
  · next hdigits =>
    obtain rfl := Option.some.inj hn
    exact Nat.one_le_iff_ne_zero.2 (x.value_ne_zero hdigits)

theorem token_delimiters_ne_nil (x : Expression letters) : x.token.delimiters ≠ [] := by
  by_cases hrun : x.run = []
  · simp [token, hrun]
  · simp [token, hrun]

theorem isWellFormed_token (x : Expression (Letter.charsOf entries)) :
    x.token.IsWellFormed entries := by
  refine ⟨Letter.mem_charsOf.1 x.letter_mem, ?_, x.token_delimiters_ne_nil, ?_⟩
  · intro n hn
    obtain ⟨count, hcount, rfl⟩ := Option.map_eq_some_iff.1 hn
    exact Int.ofNat_le.2 (x.one_le_count count hcount)
  · intro d hd
    by_cases hrun : x.run = []
    · obtain rfl : d = '.' := by simpa [token, hrun] using hd
      decide
    · refine x.mem_delimiters d ?_
      simpa [token, hrun] using hd

end Expression

theorem delimiters_ne_nil_of_scan (h : scan letters value = .ok pieces)
    (htoken : .token token ∈ pieces) : token.delimiters ≠ [] := by
  obtain ⟨x, rfl⟩ := exists_expression_of_scan h htoken
  exact x.token_delimiters_ne_nil

theorem isWellFormed_of_scan (h : scan (Letter.charsOf entries) value = .ok pieces)
    (htoken : .token token ∈ pieces) : token.IsWellFormed entries := by
  obtain ⟨x, rfl⟩ := exists_expression_of_scan h htoken
  exact x.isWellFormed_token

/-- A letter is taken exactly if its lower case, among all characters, is a macro letter that is
allowed. -/
theorem exists_step_opened_iff {c : Character} {offset : Nat} :
    (∃ result, step (Letter.charsOf entries) .opened offset c = .ok result) ↔
      ∃ letter : Letter, Text.lower [c] = [letter.char] ∧ [letter.char] ∈ entries := by
  have hlower (letter : Letter) :
      Text.lower [c] = [letter.char] ↔ c.toLower = letter.char := by
    apply Text.lower_singleton_eq_iff
    · cases letter <;> decide
    · cases letter <;> decide
  constructor
  · rintro ⟨result, hstep⟩
    simp only [step] at hstep
    split at hstep
    · cases hstep
    · split at hstep
      · cases hstep
      · next letter hletter =>
        have hchar := Letter.char_of_ofChar? hletter
        split at hstep
        · next hmem =>
          rw [← hchar] at hmem
          exact ⟨letter, (hlower letter).2 hchar.symm, Letter.mem_charsOf.1 hmem⟩
        · cases hstep
  · rintro ⟨letter, hc, hmem⟩
    exact ⟨_, step_opened ((hlower letter).1 hc) (Letter.mem_charsOf.2 hmem) offset⟩

end MacroString

namespace Transformation

variable {m : Transformation} {parts : List Text}

theorem ordered_ne_nil (m : Transformation) (h : parts ≠ []) : m.ordered parts ≠ [] := by
  unfold ordered
  split
  · simpa using h
  · exact h

theorem kept_ne_nil (hcount : ∀ n ∈ m.truncation, 1 ≤ n) (h : parts ≠ []) : m.kept parts ≠ [] := by
  have hlength : 0 < parts.length := List.length_pos_iff.2 h
  unfold kept
  split
  · exact h
  · next n hn =>
    have hn : 1 ≤ n := hcount n hn
    rw [lastItems, if_pos (by omega), Ne, List.drop_eq_nil_iff]
    omega

end Transformation

/-- Every value is cut by the delimiters of such a macro, and some part is kept. -/
theorem Token.IsWellFormed.exists_parts {entries : List Text} {token : Token}
    (h : token.IsWellFormed entries) (value : Text) :
    ∃ parts, token.parts? value = some parts ∧ token.kept (token.ordered parts) ≠ [] := by
  have hparts : token.parts value ≠ [] := (Transformation.cut_iff.2 rfl).ne_nil
  exact ⟨_, Transformation.parts?_eq_some h.delimiters_ne_nil value,
    Transformation.kept_ne_nil h.one_le_truncation (token.ordered_ne_nil hparts)⟩

end SenderPolicy
