import AsmServer.Text.Utf8
import AsmServer.Text.Numeral

/-!
# Percent encoding

A percent sign and two hexadecimal digits stand for one byte. Decoding accepts
digits of either case and leaves a percent sign that starts no such escape as it
is; bytes that form no UTF-8 become U+FFFD. Encoding writes upper-case digits and
keeps letters, digits and the punctuation that a path may show unescaped.
-/

namespace AsmServer

namespace Percent

/-- Characters that stand for themselves: ASCII letters and digits, and the
punctuation of a path except the two delimiters of queries and fragments. -/
def isPlain (c : Char) : Bool :=
  c.isAlphanum || c ∈ ['-', '_', '.', '!', '~', '*', '\'', '(', ')', ';', ',', '/', ':', '@', '&',
    '=', '+', '$']

/-- The escape of one byte. -/
def escape (b : UInt8) : Text :=
  '%' :: ([b.toNat / 16, b.toNat % 16].map fun d => Text.upperChar (Nat.digitChar d))

/-- The escapes of a character. -/
def escapeChar (c : Char) : Text := (String.utf8EncodeChar c).flatMap escape

/-- Spelling of one character. -/
def encodeChar (c : Char) : Text := if isPlain c then [c] else escapeChar c

/-- Escape every character that does not stand for itself. -/
def encode (t : Text) : Text := t.flatMap encodeChar

/-- Escape every character but those to keep. -/
def escapeUnless (keep : Char → Bool) (t : Text) : Text :=
  t.flatMap fun c => if keep c then [c] else escapeChar c

/-- The byte of the escape at the front, if there is one. -/
def escaped? : List UInt8 → Option UInt8
  | sign :: high :: low :: _ => do
    if sign ≠ 0x25 then none
    let h ← Text.digitValue? 16 (Char.ofNat high.toNat)
    let l ← Text.digitValue? 16 (Char.ofNat low.toNat)
    some (UInt8.ofNat (h * 16 + l))
  | _ => none

/-- Replace escapes by their bytes, after passing over `skip` bytes that belong
to an escape already read. -/
def unescape (skip : Nat) : List UInt8 → List UInt8
  | [] => []
  | b :: rest =>
    match skip with
    | k + 1 => unescape k rest
    | 0 =>
      match escaped? (b :: rest) with
      | some byte => byte :: unescape 2 rest
      | none => b :: unescape 0 rest

/-- The text that a percent-encoded text stands for. -/
def decode (t : Text) : Text := Utf8.decodeLenient (unescape 0 (Utf8.encode t))

end Percent

end AsmServer
