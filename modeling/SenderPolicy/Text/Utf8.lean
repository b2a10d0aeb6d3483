import SenderPolicy.Text.Basic

/-! UTF-8.  A text is written unless it holds surrogates, and the first of these are its fault.
Reading is an automaton that takes one byte at a time and says where, and why, it first stops. -/

namespace SenderPolicy

abbrev Bytes := List UInt8

/-- The surrogates from offset `start` on, `length` of them and the first of them `first`, have no
form. -/
structure EncodeFault where
  start : Nat
  length : Nat
  first : Character
  deriving DecidableEq, Repr

/-- One surrogate is shown itself, several by the offsets of the first and the last. -/
def EncodeFault.message (f : EncodeFault) : Text :=
  let place : Text :=
    if f.length = 1 then
      "character '\\u" ++ Text.ofHex 4 f.first.toNat ++ "' in position " ++ Text.ofNat f.start
    else
      "characters in position " ++ Text.ofNat f.start ++ "-" ++ Text.ofNat (f.start + f.length - 1)
  "'utf-8' codec can't encode " ++ place ++ ": surrogates not allowed"

namespace Text

/-- The first surrogates of a text, if it holds any. -/
def encodeFault? (t : Text) : Option EncodeFault :=
  match t.dropWhile Character.isScalar with
  | [] => none
  | first :: rest =>
    some ⟨(t.takeWhile Character.isScalar).length,
      (rest.takeWhile (!·.isScalar)).length + 1, first⟩

/-- Whether a text holds no surrogates, so that it can be written. -/
def isEncodable (t : Text) : Bool := t.all Character.isScalar

theorem isEncodable_iff {t : Text} : t.isEncodable ↔ ∀ c ∈ t, c.isScalar := List.all_eq_true

/-- The scalar values that make a text, unless it holds surrogates. -/
def scalars? (t : Text) : Except EncodeFault (List Char) :=
  match t.encodeFault? with
  | some fault => .error fault
  | none => .ok (t.filterMap Character.scalar?)

end Text

namespace Utf8

def encode (cs : List Char) : Bytes := cs.flatMap String.utf8EncodeChar

inductive Reason
  | startByte
  | continuation
  | truncated
  deriving DecidableEq, Repr

/-- The bytes from `start` on, `length` of them and the first of them `byte`, are not the form of
a character. -/
structure Fault where
  start : Nat
  length : Nat
  byte : UInt8
  reason : Reason
  deriving DecidableEq, Repr

/-- What a first byte announces: the bits of the code point that it holds, and the least and
greatest value of each byte that has to follow. -/
def announced (b : UInt8) : Option (Nat × List (UInt8 × UInt8)) :=
  let tail := (0x80, 0xbf)
  if b < 0x80 then some (b.toNat, [])
  else if 0xc2 ≤ b ∧ b ≤ 0xdf then some (b.toNat % 0x20, [tail])
  else if b = 0xe0 then some (0, [(0xa0, 0xbf), tail])
  else if b = 0xed then some (0xd, [(0x80, 0x9f), tail])
  else if 0xe1 ≤ b ∧ b ≤ 0xef then some (b.toNat % 0x10, [tail, tail])
  else if b = 0xf0 then some (0, [(0x90, 0xbf), tail, tail])
  else if 0xf1 ≤ b ∧ b ≤ 0xf3 then some (b.toNat % 8, [tail, tail, tail])
  else if b = 0xf4 then some (4, [(0x80, 0x8f), tail, tail])
  else none

/-- A character whose first byte `byte`, at offset `start`, has been read: the bits so far, and the
bounds of the next byte and of those after it. -/
structure Partial where
  start : Nat
  byte : UInt8
  bits : Nat
  next : UInt8 × UInt8
  later : List (UInt8 × UInt8)

/-- The characters of the bytes from `offset` on, where `pending` is the character that has begun
before them. -/
def decodeFrom : (offset : Nat) → (pending : Option Partial) → Bytes → Except Fault (List Char)
  | _, none, [] => .ok []
  | offset, some p, [] => .error ⟨p.start, offset - p.start, p.byte, .truncated⟩
  | offset, none, b :: bytes =>
    match announced b with
    | none => .error ⟨offset, 1, b, .startByte⟩
    | some (bits, []) => (decodeFrom (offset + 1) none bytes).map (Char.ofNat bits :: ·)
    | some (bits, next :: later) =>
      decodeFrom (offset + 1) (some ⟨offset, b, bits, next, later⟩) bytes
  | offset, some p, b :: bytes =>
    if p.next.1 ≤ b ∧ b ≤ p.next.2 then
      let bits := p.bits * 0x40 + b.toNat % 0x40
      match p.later with
      | [] => (decodeFrom (offset + 1) none bytes).map (Char.ofNat bits :: ·)
      | next :: later => decodeFrom (offset + 1) (some { p with bits, next, later }) bytes
    else .error ⟨p.start, offset - p.start, p.byte, .continuation⟩

/-- The text of which `bytes` are the UTF-8 form, or the first place where they stop being one. -/
def decode (bytes : Bytes) : Except Fault Text :=
  (decodeFrom 0 none bytes).map .ofChars

def Reason.message : Reason → Text
  | .startByte => "invalid start byte"
  | .continuation => "invalid continuation byte"
  | .truncated => "unexpected end of data"

/-- A fault of one byte shows the byte, one of several the offsets of the first and the last. -/
def Fault.message (f : Fault) : Text :=
  let place : Text :=
    if f.length = 1 then
      "byte 0x" ++ Text.ofHex 2 f.byte.toNat ++ " in position " ++ Text.ofNat f.start
    else
      "bytes in position " ++ Text.ofNat f.start ++ "-" ++ Text.ofNat (f.start + f.length - 1)
  "'utf-8' codec can't decode " ++ place ++ ": " ++ f.reason.message

end Utf8

/-- The UTF-8 form of a text. -/
def Text.toUtf8? (t : Text) : Except EncodeFault Bytes := t.scalars?.map Utf8.encode

end SenderPolicy
