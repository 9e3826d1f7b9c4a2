import AsmServer.Text.Basic

/-!
# UTF-8

Bytes become text one byte at a time. The decoder remembers how many continuation
bytes are still owed, the bits gathered so far and the range of the next byte;
that range excludes overlong forms, surrogates and values past U+10FFFF at the
earliest byte. A byte outside the range ends the sequence before it, which is then
one fault, and starts afresh.

Decoding therefore yields characters and faults in order. The lenient reading
writes U+FFFD for each fault, the strict reading refuses text with any fault.
-/

namespace AsmServer

namespace Utf8

/-- Bytes of a text, one character after the other. -/
def encode (t : Text) : List UInt8 := t.flatMap String.utf8EncodeChar

/-- What the decoder holds in the middle of a character: the continuation bytes
still owed, the bits so far, and the least and greatest next byte. -/
structure Partial where
  owed : Nat
  bits : Nat
  least : Nat := 0x80
  most : Nat := 0xBF

/-- A decoded item: a character, or `none` for a fault. -/
abbrev Item := Option Char

/-- Read a byte between characters: finished items and the character begun. -/
def start (b : Nat) : List Item × Option Partial :=
  if b ≤ 0x7F then ([some (Char.ofNat b)], none)
  else if 0xC2 ≤ b ∧ b ≤ 0xDF then ([], some ⟨1, b % 0x20, 0x80, 0xBF⟩)
  else if b = 0xE0 then ([], some ⟨2, 0, 0xA0, 0xBF⟩)
  else if b = 0xED then ([], some ⟨2, 0xD, 0x80, 0x9F⟩)
  else if 0xE1 ≤ b ∧ b ≤ 0xEF then ([], some ⟨2, b % 0x10, 0x80, 0xBF⟩)
  else if b = 0xF0 then ([], some ⟨3, 0, 0x90, 0xBF⟩)
  else if 0xF1 ≤ b ∧ b ≤ 0xF3 then ([], some ⟨3, b % 8, 0x80, 0xBF⟩)
  else if b = 0xF4 then ([], some ⟨3, 4, 0x80, 0x8F⟩)
  else ([none], none)

/-- Read a byte inside a character. -/
def Partial.continue (p : Partial) (b : Nat) : List Item × Option Partial :=
  if p.least ≤ b ∧ b ≤ p.most then
    let bits := p.bits * 0x40 + b % 0x40
    if p.owed ≤ 1 then ([some (Char.ofNat bits)], none)
    else ([], some ⟨p.owed - 1, bits, 0x80, 0xBF⟩)
  else
    let (items, next) := start b
    (none :: items, next)

/-- Decode bytes from the given state. A character cut off by the end is a fault. -/
def decodeFrom : Option Partial → List UInt8 → List Item
  | none, [] => []
  | some _, [] => [none]
  | state, b :: rest =>
    let (items, next) :=
      match state with
      | none => start b.toNat
      | some p => p.continue b.toNat
    items ++ decodeFrom next rest

/-- Characters and faults of a byte sequence. -/
def decode (bytes : List UInt8) : List Item := decodeFrom none bytes

/-- The text with U+FFFD in place of each fault. -/
def decodeLenient (bytes : List UInt8) : Text := (decode bytes).map (·.getD '\uFFFD')

/-- The text of a faultless byte sequence. -/
def decode? (bytes : List UInt8) : Option Text := (decode bytes).mapM id

end Utf8

end AsmServer
