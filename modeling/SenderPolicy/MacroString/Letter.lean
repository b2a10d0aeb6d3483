import SenderPolicy.Text.Basic

/-! The eleven macro letters and what each of them stands for. -/

namespace SenderPolicy

/-- What a macro letter stands for. -/
inductive Letter
  | sender
  | localPart
  | senderDomain
  | currentDomain
  | clientAddress
  | validatedName
  | heloDomain
  | readableAddress
  | receivingHost
  | timestamp
  | addressVersion
  deriving DecidableEq, Repr

namespace Letter

/-- The lower-case form of a letter. -/
def char : Letter → Character
  | .sender => 's'
  | .localPart => 'l'
  | .senderDomain => 'o'
  | .currentDomain => 'd'
  | .clientAddress => 'i'
  | .validatedName => 'p'
  | .heloDomain => 'h'
  | .readableAddress => 'c'
  | .receivingHost => 'r'
  | .timestamp => 't'
  | .addressVersion => 'v'

def all : List Letter :=
  [.sender, .localPart, .senderDomain, .currentDomain, .clientAddress, .validatedName, .heloDomain,
    .readableAddress, .receivingHost, .timestamp, .addressVersion]

theorem mem_all (l : Letter) : l ∈ all := by cases l <;> decide

def ofChar? (c : Character) : Option Letter := all.find? (·.char == c)

theorem ofChar?_char (l : Letter) : ofChar? l.char = some l := by cases l <;> decide

theorem char_of_ofChar? {c : Character} {l : Letter} (h : ofChar? c = some l) : l.char = c := by
  simpa using List.find?_some h

theorem char_injective {k l : Letter} (h : k.char = l.char) : k = l := by
  have := ofChar?_char k
  rw [h, ofChar?_char] at this
  exact (Option.some.inj this).symm

/-- The letters that only the text of an explanation may use. -/
def onlyInExplanation : Letter → Bool
  | .readableAddress | .receivingHost | .timestamp => true
  | _ => false

def allChars : List Character := all.map char

/-- The characters of the letters that a domain specification may use. -/
def domainSpecChars : List Character := (all.filter (!·.onlyInExplanation)).map char

/-- The characters that a collection of texts allows as letters.  An entry of another length allows
none. -/
def charsOf (entries : List Text) : List Character :=
  entries.filterMap fun
    | [c] => some c
    | _ => none

theorem mem_charsOf {entries : List Text} {c : Character} : c ∈ charsOf entries ↔
    [c] ∈ entries := by
  rw [charsOf, List.mem_filterMap]
  constructor
  · rintro ⟨entry, hentry, hchar⟩
    split at hchar
    · obtain rfl := Option.some.inj hchar
      exact hentry
    · cases hchar
  · intro hentry
    exact ⟨[c], hentry, rfl⟩

theorem char_mem_allChars (l : Letter) : l.char ∈ allChars := by cases l <;> decide

theorem char_mem_domainSpecChars {l : Letter} :
    l.char ∈ domainSpecChars ↔ l.onlyInExplanation = false := by cases l <;> decide

end Letter

end SenderPolicy
