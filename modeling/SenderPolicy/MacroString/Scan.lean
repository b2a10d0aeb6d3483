import SenderPolicy.MacroString.Token
import SenderPolicy.Text.Quoted

/-! Scanning of macro strings, by an automaton that takes one character at a time.  Outside of
macros it yields the characters and the escapes as literal text, and at a closing brace it yields
the macro; `scan` then joins neighbouring literal text.  Any fault makes the whole string fail, with
its cause and the offset at which the string stops being one. -/

namespace SenderPolicy

inductive Defect
  | danglingPercent
  | invalidEscape (follower : Character)
  | unterminated
  | emptyBody
  | unknownLetter (letter : Character)
  | explanationLetter (letter : Character)
  | zeroCount
  | unexpected (found : Character)
  deriving DecidableEq, Repr

def Defect.message : Defect → Text
  | .danglingPercent => "Dangling '%'"
  | .invalidEscape c => "Invalid escape '%" ++ [c] ++ "'"
  | .unterminated => "Unterminated macro"
  | .emptyBody => "Empty macro"
  | .unknownLetter c => "Unknown macro letter " ++ Text.quoted [c]
  | .explanationLetter c =>
    "Macro letter " ++ Text.quoted [c] ++ " is only allowed in explanations"
  | .zeroCount => "Truncation count must be nonzero"
  | .unexpected c => "Unexpected " ++ Text.quoted [c] ++ " in macro"

/-- Why scanning fails: a defect at an offset, or a truncation count with more digits than are
read as a number. -/
inductive ScanFault
  | defect (defect : Defect) (position : Nat)
  | longCount (digits : Nat)
  deriving DecidableEq, Repr

namespace MacroString

def countDigitLimit : Nat := 4300

/-- The characters that may separate parts. -/
def delimiters : List Character := ['.', '-', '+', ',', '/', '_', '=']

/-- The literal text that a percent sign and the character `c` stand for. -/
def escape? (c : Character) : Option Text :=
  match c with
  | '%' => some ['%']
  | '_' => some [' ']
  | '-' => some ['%', '2', '0']
  | _ => none

/-- Where the automaton stands: outside of macros, after a percent sign, after an opening brace,
after a letter and a run of digits with a value and a length, or at the delimiters. -/
inductive Mode
  | outside
  | percent
  | opened
  | counting (letter : Letter) (upper : Bool) (value length : Nat)
  | delimiting (letter : Letter) (upper : Bool) (truncation : Option Nat) (reverse : Bool)
      (delimiters : Text)
  deriving DecidableEq, Repr

abbrev Yield := Option Piece

/-- The truncation count of a run of digits that ends at `offset`. -/
def countOf (value length offset : Nat) : Except ScanFault (Option Nat) :=
  if length = 0 then .ok none
  else if countDigitLimit < length then .error (.longCount length)
  else if value = 0 then .error (.defect .zeroCount (offset - length))
  else .ok (some value)

/-- The macro that a closing brace ends.  Without delimiters, the dot is one. -/
def tokenOf (letter : Letter) (upper : Bool) (truncation : Option Nat) (reverse : Bool)
    (run : Text) : Token where
  letter := letter
  truncation := truncation.map Int.ofNat
  reverse := reverse
  delimiters := if run = [] then ['.'] else run
  urlEncode := upper

/-- The step at character `c`, at `offset`, after the letter and the count of a macro: `reverse`
tells that the reversal mark has been read, and `run` holds the delimiters. -/
def bodyStep (letter : Letter) (upper : Bool) (truncation : Option Nat) (reverse : Bool)
    (run : Text) (offset : Nat) (c : Character) : Except ScanFault (Yield × Mode) :=
  if c = '}' then .ok (some (.token (tokenOf letter upper truncation reverse run)), .outside)
  else if c ∈ delimiters then
    .ok (none, .delimiting letter upper truncation reverse (run ++ [c]))
  else if reverse = false ∧ run = [] ∧ (c = 'r' ∨ c = 'R') then
    .ok (none, .delimiting letter upper truncation true [])
  else .error (.defect (.unexpected c) offset)

/-- The step at character `c`, at `offset`, where the characters of `letters` are allowed. -/
def step (letters : List Character) (mode : Mode) (offset : Nat) (c : Character) :
    Except ScanFault (Yield × Mode) :=
  match mode with
  | .outside => .ok (if c = '%' then (none, .percent) else (some (.literal [c]), .outside))
  | .percent =>
    if c = '{' then .ok (none, .opened)
    else match escape? c with
      | some text => .ok (some (.literal text), .outside)
      | none => .error (.defect (.invalidEscape c) (offset - 1))
  | .opened =>
    if c = '}' then .error (.defect .emptyBody offset)
    else match Letter.ofChar? c.toLower with
      | none => .error (.defect (.unknownLetter c) offset)
      | some letter =>
        if c.toLower ∈ letters then .ok (none, .counting letter c.isUpper 0 0)
        else .error (.defect (.explanationLetter c) offset)
  | .counting letter upper value length =>
    if c.isDigit then
      .ok (none, .counting letter upper (value * 10 + (c.toNat - '0'.toNat)) (length + 1))
    else do
      let truncation ← countOf value length offset
      bodyStep letter upper truncation false [] offset c
  | .delimiting letter upper truncation reverse run =>
    bodyStep letter upper truncation reverse run offset c

/-- Whether a string of length `offset` may end where the automaton stands. -/
def finish (mode : Mode) (offset : Nat) : Except ScanFault Unit :=
  match mode with
  | .outside => .ok ()
  | .percent => .error (.defect .danglingPercent (offset - 1))
  | .counting _ _ value length => do
    let _ ← countOf value length offset
    .error (.defect .unterminated offset)
  | _ => .error (.defect .unterminated offset)

/-- What the automaton yields, character by character, from `offset` on. -/
def yields (letters : List Character) (mode : Mode) (offset : Nat) : Text → Except ScanFault
    (List Piece)
  | [] => do
    finish mode offset
    .ok []
  | c :: text => do
    let (yielded, next) ← step letters mode offset c
    let later ← yields letters next (offset + 1) text
    .ok (yielded.toList ++ later)

/-- Puts a piece before others; literal text joins literal text that follows it. -/
def addPiece : Piece → List Piece → List Piece
  | .literal s, .literal t :: pieces => .literal (s ++ t) :: pieces
  | piece, pieces => piece :: pieces

/-- The pieces with neighbouring literal text joined. -/
def fuse (pieces : List Piece) : List Piece := pieces.foldr addPiece []

/-- The pieces of a macro string whose letters are among `letters`. -/
def scan (letters : List Character) (value : Text) : Except ScanFault (List Piece) :=
  (yields letters .outside 0 value).map fuse

end MacroString

end SenderPolicy
