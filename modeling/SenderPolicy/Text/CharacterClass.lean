import SenderPolicy.Text.Basic

/-! Character classes, as patterns write them between brackets: characters, ranges of characters,
and characters after a backslash.  Escaped, the characters of a text stand for themselves in a
pattern, so that the class written with them has these and no others. -/

namespace SenderPolicy

/-- The characters within one of some ranges or, in a negated class, within none of them. -/
structure CharacterClass where
  negated : Bool
  ranges : List (Character × Character)
  deriving DecidableEq, Repr

namespace CharacterClass

def contains (k : CharacterClass) (c : Character) : Bool :=
  k.negated != k.ranges.any fun range => range.1 ≤ c && c ≤ range.2

/-! ### Reading -/

/-- A symbol of a pattern: a character, or one after a backslash. -/
inductive Symbol
  | plain (c : Character)
  | escaped (c : Character)
  deriving DecidableEq, Repr

/-- The character that a symbol stands for inside of a class.  After a backslash, letters and digits
have meanings of their own, which are not read. -/
def Symbol.literal? : Symbol → Option Character
  | .plain c => some c
  | .escaped c => if c.isAlphanum then none else some c

/-- The symbols of a pattern, unless a backslash ends it. -/
def symbols? : Text → Option (List Symbol)
  | [] => some []
  | [c] => if c = '\\' then none else some [.plain c]
  | c :: d :: t =>
    if c = '\\' then (symbols? t).map (.escaped d :: ·)
    else (symbols? (d :: t)).map (.plain c :: ·)

theorem symbols?_escaped (c : Character) (t : Text) :
    symbols? (.scalar '\\' :: c :: t) = (symbols? t).map (.escaped c :: ·) := by
  rw [symbols?, if_pos rfl]

theorem symbols?_plain {c : Character} (h : c ≠ '\\') (t : Text) :
    symbols? (c :: t) = (symbols? t).map (.plain c :: ·) := by
  cases t with
  | nil => simp [symbols?, h]
  | cons d t => rw [symbols?, if_neg h]

/-- Where the reading of a class stands: at its start, after a character that may begin a range,
after the dash that follows such a character, after a range, or at its end. -/
inductive Stage
  | start
  | character (c : Character)
  | dash (first : Character)
  | between
  | closed
  deriving DecidableEq, Repr

/-- The ranges that a symbol completes, and the stage after it.  A bracket at the start and a dash
that no character follows stand for themselves. -/
def step (stage : Stage) (symbol : Symbol) : Option (List (Character × Character) × Stage) :=
  match stage with
  | .start => symbol.literal?.map fun c => ([], .character c)
  | .character c =>
    if symbol = .plain ']' then some ([(c, c)], .closed)
    else if symbol = .plain '-' then some ([], .dash c)
    else symbol.literal?.map fun d => ([(c, c)], .character d)
  | .dash first =>
    if symbol = .plain ']' then some ([(first, first), ('-', '-')], .closed)
    else symbol.literal?.bind fun last =>
      if first ≤ last then some ([(first, last)], .between) else none
  | .between =>
    if symbol = .plain ']' then some ([], .closed)
    else symbol.literal?.map fun c => ([], .character c)
  | .closed => none

/-- The ranges of a class from a stage on, if the class ends where the pattern does. -/
def ranges? (stage : Stage) : List Symbol → Option (List (Character × Character))
  | [] => if stage = .closed then some [] else none
  | symbol :: rest => do
    let (found, next) ← step stage symbol
    let later ← ranges? next rest
    return found ++ later

/-- The class that a pattern is, if it is a single class. -/
def ofPattern? (pattern : Text) : Option CharacterClass :=
  match symbols? pattern with
  | some (.plain (.scalar '[') :: .plain (.scalar '^') :: body) =>
    (ranges? .start body).map (⟨true, ·⟩)
  | some (.plain (.scalar '[') :: body) => (ranges? .start body).map (⟨false, ·⟩)
  | _ => none

/-! ### Writing -/

/-- The characters that are written after a backslash. -/
def special : List Character := ("()[]\x7b\x7d?*+-|^$\\.&~# \t\n\r\x0b\x0c" : Text)

def escapeChar (c : Character) : Text := if c ∈ special then ['\\', c] else [c]

def escape (t : Text) : Text := t.flatMap escapeChar

/-- The pattern of the class that has the characters of a text. -/
def patternOf (t : Text) : Text := .scalar '[' :: (escape t ++ ([']'] : Text))

def symbolOf (c : Character) : Symbol := if c ∈ special then .escaped c else .plain c

theorem symbols?_escapeChar (c : Character) (rest : Text) :
    symbols? (escapeChar c ++ rest) = (symbols? rest).map (symbolOf c :: ·) := by
  by_cases hc : c ∈ special
  · rw [escapeChar, symbolOf, if_pos hc, if_pos hc]
    exact symbols?_escaped c rest
  · have hslash : c ≠ '\\' := by
      rintro rfl
      exact hc (by decide)
    rw [escapeChar, symbolOf, if_neg hc, if_neg hc]
    exact symbols?_plain hslash rest

theorem symbols?_escape (t rest : Text) :
    symbols? (escape t ++ rest) = (symbols? rest).map (t.map symbolOf ++ ·) := by
  induction t with
  | nil => simp [escape]
  | cons c t ih =>
    have hcons : escape (c :: t) ++ rest = escapeChar c ++ (escape t ++ rest) := by
      simp [escape]
    rw [hcons, symbols?_escapeChar, ih, Option.map_map]
    rfl

theorem literal?_symbolOf (c : Character) : (symbolOf c).literal? = some c := by
  by_cases hc : c ∈ special
  · have hall : special.all (!·.isAlphanum) = true := by decide
    have hplain : ∀ d ∈ special, d.isAlphanum = false := by simpa using hall
    simp [symbolOf, hc, Symbol.literal?, hplain c hc]
  · simp [symbolOf, hc, Symbol.literal?]

theorem symbolOf_ne_plain {d : Character} (hd : d ∈ special) (c : Character) :
    symbolOf c ≠ .plain d := by
  by_cases hc : c ∈ special
  · simp [symbolOf, hc]
  · have hne : c ≠ d := fun h => hc (h ▸ hd)
    simp [symbolOf, hc, hne]

/-- No escaped character closes a class or makes a range. -/
theorem step_symbolOf (c d : Character) :
    step (.character c) (symbolOf d) = some ([(c, c)], .character d) := by
  simp [step, symbolOf_ne_plain (show Character.scalar ']' ∈ special by decide),
    symbolOf_ne_plain (show Character.scalar '-' ∈ special by decide), literal?_symbolOf]

theorem ranges?_character (c : Character) (t : Text) :
    ranges? (.character c) (t.map symbolOf ++ [.plain ']']) =
      some ((c :: t).map fun d => (d, d)) := by
  induction t generalizing c with
  | nil => rfl
  | cons d t ih =>
    simp only [List.map_cons, List.cons_append, ranges?, step_symbolOf, ih, bind, Option.bind,
      pure, List.nil_append]

/-- The class written with the characters of a text has just these. -/
theorem ofPattern?_patternOf {t : Text} (h : t ≠ []) :
    ofPattern? (patternOf t) = some ⟨false, t.map fun c => (c, c)⟩ := by
  obtain ⟨c, t, rfl⟩ := List.exists_cons_of_ne_nil h
  have hsymbols : symbols? (patternOf (c :: t)) =
      some (.plain '[' :: symbolOf c :: (t.map symbolOf ++ [.plain ']'])) := by
    have hclose : symbols? [']'] = some [.plain ']'] := rfl
    rw [patternOf, symbols?_plain (by decide), symbols?_escape, hclose]
    rfl
  have hstart : ranges? .start (symbolOf c :: (t.map symbolOf ++ [.plain ']'])) =
      some ((c :: t).map fun d => (d, d)) := by
    simp only [ranges?, step, literal?_symbolOf, Option.map, ranges?_character, bind, Option.bind,
      pure, List.nil_append]
  rw [ofPattern?, hsymbols]
  split
  · next hcaret =>
    have : symbolOf c = .plain '^' := by
      simp only [Option.some.injEq, List.cons.injEq] at hcaret
      exact hcaret.2.1
    exact absurd this (symbolOf_ne_plain (by decide) c)
  · next hbody =>
    simp only [Option.some.injEq, List.cons.injEq, true_and] at hbody
    rw [← hbody, hstart]
    rfl
  · next hother => exact absurd rfl (hother _)

theorem contains_singles (t : Text) (c : Character) :
    contains ⟨false, t.map fun d => (d, d)⟩ c = t.contains c := by
  have hsingle (d : Character) : (decide (d ≤ c) && decide (c ≤ d)) = (c == d) := by
    rw [Bool.eq_iff_iff]
    simp only [Bool.and_eq_true, decide_eq_true_eq, beq_iff_eq]
    constructor
    · rintro ⟨hle, hge⟩
      exact Character.le_antisymm hge hle
    · rintro rfl
      exact ⟨Character.le_refl c, Character.le_refl c⟩
  simp only [contains, List.any_map, Function.comp_def, hsingle, Bool.false_bne]
  rw [List.contains_eq_any_beq]

end CharacterClass

end SenderPolicy
