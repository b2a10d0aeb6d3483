import SenderPolicy.Text.Character

/-! Texts as lists of characters, and the operations by which the library cuts and joins them. -/

namespace SenderPolicy

abbrev Text := List Character

/-- The text of some scalar values. -/
def Text.ofChars (cs : List Char) : Text := cs.map .scalar

@[simp] theorem Text.ofChars_nil : Text.ofChars [] = [] := rfl

@[simp] theorem Text.ofChars_cons (c : Char) (cs : List Char) :
    Text.ofChars (c :: cs) = .scalar c :: Text.ofChars cs := rfl

instance : Coe (List Char) Text := ⟨.ofChars⟩

/-- A string literal stands for the text of its characters. -/
instance : Coe String Text := ⟨fun s => .ofChars s.toList⟩

namespace Text

/-- The parts, one after another, with `separator` between neighbours. -/
def join (separator : Text) (parts : List Text) : Text := separator.intercalate parts

/-- A text without the characters at its end that satisfy `p`. -/
def dropTrailing (p : Character → Bool) (t : Text) : Text := (t.reverse.dropWhile p).reverse

/-- A text without the characters at either end that satisfy `p`. -/
def trim (p : Character → Bool) (t : Text) : Text := dropTrailing p (t.dropWhile p)

/-- A domain name without the dots at its end. -/
def dropFinalDots (t : Text) : Text := t.dropTrailing (· == '.')

/-- What stands before the last `c`; nothing, if there is no `c`. -/
def beforeLast (c : Character) (t : Text) : Text := ((t.reverse.dropWhile (· != c)).drop 1).reverse

/-- What stands after the last `c`; the whole text, if there is no `c`. -/
def afterLast (c : Character) (t : Text) : Text := (t.reverse.takeWhile (· != c)).reverse

theorem bne_of_mem_reverse {c : Character} {t : Text} (h : c ∉ t) : ∀ d ∈ t.reverse,
    (d != c) = true :=
  fun d hd => by simpa using fun he : d = c => h (he ▸ List.mem_reverse.1 hd)

theorem afterLast_append_cons {c : Character} {before after : Text} (h : c ∉ after) :
    afterLast c (before ++ c :: after) = after := by
  rw [afterLast, List.reverse_append, List.reverse_cons, List.append_assoc,
    List.takeWhile_append_of_pos (bne_of_mem_reverse h)]
  simp

theorem beforeLast_append_cons {c : Character} {before after : Text} (h : c ∉ after) :
    beforeLast c (before ++ c :: after) = before := by
  rw [beforeLast, List.reverse_append, List.reverse_cons, List.append_assoc,
    List.dropWhile_append_of_pos (bne_of_mem_reverse h)]
  simp

/-- A text that holds `c` is what stands before the last `c`, that `c`, and what stands after. -/
theorem beforeLast_append_afterLast {c : Character} {t : Text} (h : c ∈ t) :
    t.beforeLast c ++ c :: t.afterLast c = t := by
  obtain ⟨after, before, ht, hc⟩ := List.eq_append_cons_of_mem (List.mem_reverse.2 h)
  have ht : t = before.reverse ++ c :: after.reverse := by
    rw [← List.reverse_reverse t, ht]; simp
  have hc : c ∉ after.reverse := by simpa using hc
  rw [ht, beforeLast_append_cons hc, afterLast_append_cons hc]

/-- The lines of a text that are not empty, without the line feeds at their ends.  No other
character ends a line. -/
def lines (t : Text) : List Text := (t.splitOn (.scalar '\n')).filter (· != [])

/-- A number in a base up to 16, with lower-case digits. -/
def digits (base n : Nat) : Text := .ofChars (Nat.toDigits base n)

theorem digits_of_lt {base n : Nat} (h : n < base) : digits base n = [.scalar n.digitChar] := by
  rw [digits, Nat.toDigits_of_lt_base h]
  rfl

theorem digits_of_le {base n : Nat} (hbase : 1 < base) (h : base ≤ n) :
    digits base n = digits base (n / base) ++ [.scalar (n % base).digitChar] := by
  rw [digits, Nat.toDigits_of_base_le hbase h, ofChars, List.map_append]
  rfl

def ofNat (n : Nat) : Text := digits 10 n

def ofInt : Int → Text
  | .ofNat n => ofNat n
  | .negSucc n => .scalar '-' :: ofNat (n + 1)

/-- The number of digits up to which an integer is written. -/
def integerDigitLimit : Nat := 4300

/-- The least number with more digits than are written. -/
def leastUnwritten : Nat := Nat.pow 10 integerDigitLimit

/-- A number in decimal, if it has no more digits than are written. -/
def ofInt? (n : Int) : Option Text :=
  if (ofNat n.natAbs).length ≤ integerDigitLimit then some (ofInt n) else none

/-- What is said of a number that is not written. -/
def longNumberMessage : Text :=
  "Exceeds the limit (" ++ ofNat integerDigitLimit ++
    " digits) for integer string conversion; use sys.set_int_max_str_digits() to increase the limit"

theorem length_ofNat_le_iff {n : Nat} :
    (ofNat n).length ≤ integerDigitLimit ↔ n < leastUnwritten := by
  rw [ofNat, digits, ofChars, List.length_map, Nat.length_toDigits_le_iff (by decide) (by decide),
    leastUnwritten, Nat.pow_eq]

theorem ofInt?_of_lt {n : Int} (h : n.natAbs < leastUnwritten) : ofInt? n = some (ofInt n) :=
  if_pos (length_ofNat_le_iff.2 h)

theorem ofInt?_of_le {n : Int} (h : leastUnwritten ≤ n.natAbs) : ofInt? n = none :=
  if_neg fun hlength => absurd (length_ofNat_le_iff.1 hlength) (Nat.not_lt.2 h)

/-- Zeros that make up for missing digits. -/
def zeros (n : Nat) : Text := List.replicate n '0'

/-- A number in hexadecimal, with lower-case digits and at least `width` of them. -/
def ofHex (width n : Nat) : Text :=
  zeros (width - (digits 16 n).length) ++ digits 16 n

/-- The order of texts by their code points, in which a text precedes itself. -/
def precedes : Text → Text → Bool
  | [], _ => true
  | _ :: _, [] => false
  | c :: s, d :: t => c.toNat < d.toNat || (c == d && precedes s t)

end Text

end SenderPolicy
