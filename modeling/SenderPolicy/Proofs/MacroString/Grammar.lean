import SenderPolicy.MacroString.Scan
import SenderPolicy.Number.Numeral

/-! The grammar of macro strings.  A macro string is a list of items: plain characters, escapes and
macros in braces.  `written` spells the items, and `Denotes` relates them to the pieces that they
stand for.  Spelling is one-to-one: no text is spelled by two lists of items. -/

namespace SenderPolicy.MacroString

/-- The characters that a percent sign may stand before on its own. -/
inductive Escape
  | percent
  | underscore
  | dash
  deriving DecidableEq, Repr

namespace Escape

def char : Escape → Character
  | .percent => '%'
  | .underscore => '_'
  | .dash => '-'

/-- A percent sign, a space, or a space in percent-encoding. -/
def literal : Escape → Text
  | .percent => "%"
  | .underscore => " "
  | .dash => "%20"

theorem char_injective {e f : Escape} (h : e.char = f.char) : e = f := by
  cases e <;> cases f <;> simp_all [char]

theorem char_ne_brace (e : Escape) : e.char ≠ '{' := by cases e <;> decide

theorem literal_ne_nil (e : Escape) : e.literal ≠ [] := by cases e <;> decide

end Escape

/-- A macro as it is written, where the characters of `letters` are allowed: a letter in either
case, digits of a number that is not zero, a reversal mark, and delimiters. -/
@[ext]
structure Expression (letters : List Character) where
  letter : Letter
  written : Character
  digits : Text
  mark : Option Character
  run : Text
  written_isAlpha : written.isAlpha = true
  toLower_written : written.toLower = letter.char
  letter_mem : letter.char ∈ letters
  isDigit_of_mem : ∀ c ∈ digits, c.isDigit = true
  length_digits : digits.length ≤ 4300
  value_ne_zero : digits ≠ [] → Numeral.valueOf digits ≠ 0
  mark_eq : ∀ c ∈ mark, c = 'r' ∨ c = 'R'
  mem_delimiters : ∀ c ∈ run, c ∈ (".-+,/_=" : Text)

inductive Item (letters : List Character)
  | plain (c : Character) (ne_percent : c ≠ '%')
  | escape (e : Escape)
  | expression (x : Expression letters)

variable {letters : List Character}

namespace Expression

/-- The number that the digits tell, if there are digits. -/
def count (x : Expression letters) : Option Nat :=
  if x.digits = [] then none else some (Numeral.valueOf x.digits)

/-- The macro that is written.  Without delimiters the dot is one, and a capital letter asks for
percent-encoding. -/
def token (x : Expression letters) : Token where
  letter := x.letter
  truncation := x.count.map Int.ofNat
  reverse := x.mark.isSome
  delimiters := if x.run = [] then ['.'] else x.run
  urlEncode := x.written.isUpper

/-- The text of a macro up to its closing brace. -/
def opening (x : Expression letters) : Text :=
  .scalar '%' :: .scalar '{' :: x.written :: (x.digits ++ (x.mark.toList ++ x.run))

def text (x : Expression letters) : Text := x.opening ++ [.scalar '}']

end Expression

namespace Item

def text : Item letters → Text
  | .plain c _ => [c]
  | .escape e => ['%', e.char]
  | .expression x => x.text

def isLiteral : Item letters → Bool
  | .expression _ => false
  | _ => true

/-- The literal text that an item stands for, unless it is a macro. -/
def literal : Item letters → Text
  | .plain c _ => [c]
  | .escape e => e.literal
  | .expression _ => []

/-- What an item stands for by itself. -/
def piece : Item letters → Piece
  | .expression x => .token x.token
  | item => .literal item.literal

theorem literal_ne_nil {item : Item letters} (h : item.isLiteral = true) : item.literal ≠ [] := by
  cases item with
  | plain c hc => simp [literal]
  | escape e => exact e.literal_ne_nil
  | expression x => simp [isLiteral] at h

end Item

def written (items : List (Item letters)) : Text := items.flatMap Item.text

@[simp] theorem written_nil : written ([] : List (Item letters)) = [] := rfl

@[simp] theorem written_cons (item : Item letters) (items : List (Item letters)) :
    written (item :: items) = item.text ++ written items := rfl

/-- The pieces that items stand for: every macro stands for its token, and every run of other items
that cannot be made longer for one literal text. -/
inductive Denotes : List (Item letters) → List Piece → Prop
  | nil : Denotes [] []
  | token {x : Expression letters} {items : List (Item letters)} {pieces : List Piece} :
      Denotes items pieces → Denotes (.expression x :: items) (.token x.token :: pieces)
  | literal (run : List (Item letters)) {rest : List (Item letters)} {pieces : List Piece} :
      run ≠ [] → (∀ item ∈ run, item.isLiteral = true) →
      (∀ item ∈ rest.head?, item.isLiteral = false) → Denotes rest pieces →
      Denotes (run ++ rest) (.literal (run.flatMap Item.literal) :: pieces)

/-! ### Unique readability -/

/-- Where two texts are cut at the ends of runs of characters that satisfy `p`, equal texts have
equal parts. -/
theorem append_inj_of_run {p : Character → Bool} {xs ys s t : Text} (hx : ∀ c ∈ xs, p c = true)
    (hy : ∀ c ∈ ys, p c = true) (hs : ∀ c ∈ s.head?, p c = false) (ht : ∀ c ∈ t.head?, p c = false)
    (h : xs ++ s = ys ++ t) : xs = ys ∧ s = t := by
  have run {xs s : Text} (hx : ∀ c ∈ xs, p c = true) (hs : ∀ c ∈ s.head?, p c = false) :
      (xs ++ s).takeWhile p = xs := by
    rw [List.takeWhile_append_of_pos hx]
    cases s with
    | nil => simp
    | cons c s => simp [hs c rfl]
  have hxy : xs = ys := by rw [← run hx hs, h, run hy ht]
  subst hxy
  exact ⟨rfl, List.append_cancel_left h⟩

namespace Expression

theorem mem_of_head_run (x : Expression letters) (rest : Text) :
    ∀ c ∈ (x.run ++ .scalar '}' :: rest).head?, c ∈ .scalar '}' :: (".-+,/_=" : Text) := by
  intro c hc
  rcases hr : x.run with _ | ⟨d, run⟩
  · simp only [hr, List.nil_append, List.head?_cons, Option.mem_some_iff] at hc
    subst hc
    decide
  · have hd := x.mem_delimiters d (by simp [hr])
    simp only [hr, List.cons_append, List.head?_cons, Option.mem_some_iff] at hc
    subst hc
    exact List.mem_cons_of_mem _ hd

theorem mem_of_head_mark (x : Expression letters) (rest : Text) :
    ∀ c ∈ (x.mark.toList ++ (x.run ++ .scalar '}' :: rest)).head?,
      c ∈ .scalar 'r' :: .scalar 'R' :: .scalar '}' :: (".-+,/_=" : Text) := by
  intro c hc
  rcases hm : x.mark with _ | m
  · rw [hm] at hc
    exact List.mem_append_right (['r', 'R'] : Text) (x.mem_of_head_run rest c hc)
  · have hr := x.mark_eq m (by simp [hm])
    simp only [hm, Option.toList_some, List.cons_append, List.head?_cons,
      Option.mem_some_iff] at hc
    subst hc
    rcases hr with rfl | rfl <;> decide

/-- The fields of a macro are cut where the kind of its characters changes, so a text that begins
with a macro begins with that one only. -/
theorem text_append_inj {x y : Expression letters} {s t : Text} (h : x.text ++ s = y.text ++ t) :
    x = y ∧ s = t := by
  simp only [text, opening, List.cons_append, List.append_assoc, List.nil_append,
    List.cons.injEq, true_and] at h
  obtain ⟨hw, h⟩ := h
  have hdigit : ∀ c ∈ .scalar 'r' :: .scalar 'R' :: .scalar '}' :: (".-+,/_=" : Text),
      c.isDigit = false := by decide
  obtain ⟨hd, h⟩ := append_inj_of_run x.isDigit_of_mem y.isDigit_of_mem
    (fun c hc => hdigit c (x.mem_of_head_mark s c hc))
    (fun c hc => hdigit c (y.mem_of_head_mark t c hc)) h
  have hmark (z : Expression letters) :
      ∀ c ∈ z.mark.toList, (c == 'r' || c == 'R') = true := by
    intro c hc
    simpa using z.mark_eq c (by simpa using hc)
  have hnomark : ∀ c ∈ .scalar '}' :: (".-+,/_=" : Text), (c == 'r' || c == 'R') = false := by simp
  obtain ⟨hm, h⟩ := append_inj_of_run (hmark x) (hmark y)
    (fun c hc => hnomark c (x.mem_of_head_run s c hc))
    (fun c hc => hnomark c (y.mem_of_head_run t c hc)) h
  obtain ⟨hr, h⟩ := append_inj_of_run (p := ((".-+,/_=" : Text).contains ·))
    (fun c hc => by simpa using x.mem_delimiters c hc)
    (fun c hc => by simpa using y.mem_delimiters c hc) (by simp) (by simp) h
  have hl : x.letter = y.letter :=
    Letter.char_injective (by rw [← x.toLower_written, hw, y.toLower_written])
  have hmark : x.mark = y.mark := by
    cases hx : x.mark <;> cases hy : y.mark <;> simp_all
  exact ⟨Expression.ext hl hw hd hmark hr, (List.cons.inj h).2⟩

end Expression

namespace Item

theorem text_ne_nil (item : Item letters) : item.text ≠ [] := by
  cases item <;> simp [text, Expression.text]

/-- The first two characters tell the kinds of items apart, so a text that begins with an item
begins with that one only. -/
theorem text_append_inj {i j : Item letters} {s t : Text} (h : i.text ++ s = j.text ++ t) :
    i = j ∧ s = t := by
  cases i with
  | plain c hc =>
    cases j with
    | plain d hd => simpa [text] using h
    | escape e => exact absurd (List.cons.inj h).1 hc
    | expression y => exact absurd (List.cons.inj h).1 hc
  | escape e =>
    cases j with
    | plain d hd => exact absurd (List.cons.inj h).1.symm hd
    | escape f =>
      simp only [text, List.cons_append, List.nil_append, List.cons.injEq, true_and] at h
      exact ⟨by rw [Escape.char_injective h.1], h.2⟩
    | expression y => exact absurd (List.cons.inj (List.cons.inj h).2).1 e.char_ne_brace
  | expression x =>
    cases j with
    | plain d hd => exact absurd (List.cons.inj h).1.symm hd
    | escape f => exact absurd (List.cons.inj (List.cons.inj h).2).1.symm f.char_ne_brace
    | expression y =>
      obtain ⟨rfl, hst⟩ := Expression.text_append_inj h
      exact ⟨rfl, hst⟩

end Item

theorem written_injective {items others : List (Item letters)}
    (h : written items = written others) : items = others := by
  induction items generalizing others with
  | nil =>
    cases others with
    | nil => rfl
    | cons j others => simp [j.text_ne_nil] at h
  | cons i items ih =>
    cases others with
    | nil => simp [i.text_ne_nil] at h
    | cons j others =>
      obtain ⟨rfl, hrest⟩ := Item.text_append_inj h
      rw [ih hrest]

end SenderPolicy.MacroString
