import AsmServer.Text.Utf8
import Mathlib.Tactic.IntervalCases

/-!
# Reading back UTF-8

Decoding undoes encoding. A character takes at most four bytes; the first byte fixes how
many follow and, where it could begin an overlong form, a surrogate or a value past the
last character, a narrower range for the second. The bounds of a character are exactly
what keeps its bytes inside these ranges.
-/

namespace AsmServer

namespace Utf8

/-! ## Bytes -/

theorem toNat_ofNat {n : Nat} (small : n < 0x100) : (UInt8.ofNat n).toNat = n := by
  simpa using Nat.mod_eq_of_lt small

theorem start_one {n : Nat} (small : n ≤ 0x7F) : start n = ([some (Char.ofNat n)], none) := by
  simp [start, small]

theorem start_two {high : Nat} (least : 2 ≤ high) (most : high < 0x20) :
    start (high + 0xC0) = ([], some ⟨1, high, 0x80, 0xBF⟩) := by
  interval_cases high <;> rfl

theorem start_three {high : Nat} (most : high < 0x10) :
    start (high + 0xE0) =
      ([], some ⟨2, high, if high = 0 then 0xA0 else 0x80, if high = 0xD then 0x9F else 0xBF⟩) := by
  interval_cases high <;> rfl

theorem start_four {high : Nat} (most : high ≤ 4) :
    start (high + 0xF0) =
      ([], some ⟨3, high, if high = 0 then 0x90 else 0x80, if high = 4 then 0x8F else 0xBF⟩) := by
  interval_cases high <;> rfl

/-- A byte in range adds six bits. -/
theorem continue_of_range {p : Partial} {low : Nat} (small : low < 0x40)
    (least : p.least ≤ low + 0x80) (most : low + 0x80 ≤ p.most) :
    p.continue (low + 0x80) =
      if p.owed ≤ 1 then ([some (Char.ofNat (p.bits * 0x40 + low))], none)
      else ([], some ⟨p.owed - 1, p.bits * 0x40 + low, 0x80, 0xBF⟩) := by
  have bits : (low + 0x80) % 0x40 = low := by omega
  simp [Partial.continue, least, most, bits]

theorem decodeFrom_start {n : Nat} (small : n < 0x100) (rest : List UInt8) :
    decodeFrom none (UInt8.ofNat n :: rest) = (start n).1 ++ decodeFrom (start n).2 rest := by
  simp only [decodeFrom, toNat_ofNat small]

theorem decodeFrom_continue {p : Partial} {low : Nat} (small : low < 0x40)
    (least : p.least ≤ low + 0x80) (most : low + 0x80 ≤ p.most) (rest : List UInt8) :
    decodeFrom (some p) (UInt8.ofNat (low + 0x80) :: rest) =
      if p.owed ≤ 1 then some (Char.ofNat (p.bits * 0x40 + low)) :: decodeFrom none rest
      else decodeFrom (some ⟨p.owed - 1, p.bits * 0x40 + low, 0x80, 0xBF⟩) rest := by
  simp only [decodeFrom, toNat_ofNat (show low + 0x80 < 0x100 by omega),
    continue_of_range small least most]
  split <;> rfl

/-! ## Characters -/

theorem encodeChar_ascii {c : Char} (ascii : c.toNat < 0x80) :
    String.utf8EncodeChar c = [UInt8.ofNat c.toNat] := by
  have small : c.toNat ≤ 127 := by omega
  simp [String.utf8EncodeChar, small]

/-- Reading the bytes of a character yields the character. -/
theorem decodeFrom_encodeChar (c : Char) (rest : List UInt8) :
    decodeFrom none (String.utf8EncodeChar c ++ rest) = some c :: decodeFrom none rest := by
  have valid : c.toNat < 0xD800 ∨ 0xDFFF < c.toNat ∧ c.toNat < 0x110000 := c.valid
  have back : Char.ofNat c.toNat = c := Char.ofNat_toNat c
  have value : c.val.toNat = c.toNat := rfl
  generalize c.toNat = n at valid back value
  simp only [String.utf8EncodeChar, value]
  split_ifs with one two three
  · simp [decodeFrom_start (show n < 0x100 by omega), start_one one, back]
  · have high : n / 64 % 0x20 = n / 64 := by omega
    have sum : n / 64 * 0x40 + n % 0x40 = n := by omega
    simp only [high, List.cons_append, List.nil_append]
    rw [decodeFrom_start (by omega), start_two (by omega) (by omega), List.nil_append,
      decodeFrom_continue (by omega) (by simp) (by simp; omega)]
    simp [sum, back]
  · have high : n / 4096 % 0x10 = n / 4096 := by omega
    have sum : (n / 4096 * 0x40 + n / 64 % 0x40) * 0x40 + n % 0x40 = n := by omega
    simp only [high, List.cons_append, List.nil_append]
    rw [decodeFrom_start (by omega), start_three (by omega), List.nil_append,
      decodeFrom_continue (by omega) (by dsimp only; split <;> omega)
        (by dsimp only; split <;> omega)]
    simp only [show ¬ (2 ≤ 1) by omega, if_false]
    rw [decodeFrom_continue (by omega) (by simp) (by simp; omega)]
    simp [sum, back]
  · have high : n / 262144 % 8 = n / 262144 := by omega
    have sum : ((n / 262144 * 0x40 + n / 4096 % 0x40) * 0x40 + n / 64 % 0x40) * 0x40 + n % 0x40
        = n := by omega
    simp only [high, List.cons_append, List.nil_append]
    rw [decodeFrom_start (by omega), start_four (by omega), List.nil_append,
      decodeFrom_continue (by omega) (by dsimp only; split <;> omega)
        (by dsimp only; split <;> omega)]
    simp only [show ¬ (3 ≤ 1) by omega, if_false]
    rw [decodeFrom_continue (by omega) (by simp) (by simp; omega)]
    simp only [show ¬ (3 - 1 ≤ 1) by omega, if_false]
    rw [decodeFrom_continue (by omega) (by simp) (by simp; omega)]
    simp [sum, back]

theorem decode_encode (t : Text) : decode (encode t) = t.map some := by
  induction t with
  | nil => rfl
  | cons c rest ih =>
    have first : decode (encode (c :: rest)) = some c :: decode (encode rest) :=
      decodeFrom_encodeChar c (encode rest)
    rw [first, ih, List.map_cons]

/-- Decoding undoes encoding. -/
theorem decodeLenient_encode (t : Text) : decodeLenient (encode t) = t := by
  simp [decodeLenient, decode_encode]

/-- Letters and digits are ASCII. -/
theorem isAlphanum_ascii {c : Char} (alnum : c.isAlphanum = true) : c.toNat < 0x80 := by
  have below (last : Char) (most : c.val ≤ last.val) (ascii : last.toNat < 0x80) :
      c.toNat < 0x80 := Nat.lt_of_le_of_lt (UInt32.le_iff_toNat_le.mp most) ascii
  rcases Bool.or_eq_true_iff.mp alnum with alpha | digit
  · rcases Bool.or_eq_true_iff.mp alpha with upper | lower
    · exact below 'Z' (of_decide_eq_true upper).2 (by decide)
    · exact below 'z' (of_decide_eq_true (Bool.and_eq_true_iff.mp lower).2) (by decide)
  · exact below '9' (of_decide_eq_true (Bool.and_eq_true_iff.mp digit).2) (by decide)

end Utf8

end AsmServer
