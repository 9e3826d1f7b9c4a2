import AsmServer.Uri.Percent
import AsmServer.Proofs.Text.Utf8

/-!
# Reading back percent encoding

Decoding undoes encoding: an escape gives back its byte, a plain character is its own
byte and never a percent sign, and the bytes of the whole text are read as UTF-8 at the
end.
-/

namespace AsmServer

namespace Percent

/-! ## Escapes -/

/-- The spelling of a digit of an escape. -/
def digit (d : Nat) : Char := Text.upperChar (Nat.digitChar d)

/-- The bytes of a digit of an escape, with a letter of either case. -/
def digitBytes (d : Nat) : List UInt8 :=
  [UInt8.ofNat (Nat.digitChar d).toNat, UInt8.ofNat (digit d).toNat]

theorem digitValue?_of_mem : ∀ d < 16, ∀ byte ∈ digitBytes d,
    Text.digitValue? 16 (Char.ofNat byte.toNat) = some d := by
  have all : ∀ d < 16,
      (digitBytes d).all (fun byte => Text.digitValue? 16 (Char.ofNat byte.toNat) == some d) := by
    decide
  intro d small byte member
  exact eq_of_beq (List.all_eq_true.mp (all d small) byte member)

theorem toNat_digit : ∀ d < 16, (digit d).toNat < 0x80 := by decide

theorem encode_escape (b : UInt8) :
    Utf8.encode (escape b) =
      [0x25, UInt8.ofNat (digit (b.toNat / 16)).toNat,
        UInt8.ofNat (digit (b.toNat % 16)).toNat] := by
  have high : b.toNat / 16 < 16 := by have := b.toNat_lt; omega
  have low : b.toNat % 16 < 16 := by omega
  have sign : String.utf8EncodeChar '%' = [0x25] := by decide
  have spelled : escape b = ['%', digit (b.toNat / 16), digit (b.toNat % 16)] := rfl
  simp [spelled, Utf8.encode, sign, Utf8.encodeChar_ascii (toNat_digit _ high),
    Utf8.encodeChar_ascii (toNat_digit _ low)]

/-- A percent sign and two digits of either case are read as their byte. -/
theorem unescape_digits {b high low : UInt8} (first : high ∈ digitBytes (b.toNat / 16))
    (second : low ∈ digitBytes (b.toNat % 16)) (rest : List UInt8) :
    unescape 0 (0x25 :: high :: low :: rest) = b :: unescape 0 rest := by
  have value : UInt8.ofNat (b.toNat / 16 * 16 + b.toNat % 16) = b := by
    rw [show b.toNat / 16 * 16 + b.toNat % 16 = b.toNat by omega, UInt8.ofNat_toNat]
  have escaped : escaped? (0x25 :: high :: low :: rest) = some b := by
    simp only [escaped?, digitValue?_of_mem _ (show b.toNat / 16 < 16 by have := b.toNat_lt; omega)
      _ first, digitValue?_of_mem _ (show b.toNat % 16 < 16 by omega) _ second, value, ne_eq,
      not_true, if_false, Option.bind_eq_bind, Option.bind_some]
  simp [unescape, escaped]

/-- An escape is read as its byte. -/
theorem unescape_escape (b : UInt8) (rest : List UInt8) :
    unescape 0 (Utf8.encode (escape b) ++ rest) = b :: unescape 0 rest := by
  rw [encode_escape]
  exact unescape_digits (by simp [digitBytes]) (by simp [digitBytes]) rest

/-- A byte that is no percent sign stands for itself. -/
theorem unescape_cons {b : UInt8} (plain : b ≠ 0x25) (rest : List UInt8) :
    unescape 0 (b :: rest) = b :: unescape 0 rest := by
  have : escaped? (b :: rest) = none := by
    unfold escaped?
    split
    · next h =>
      cases h
      simp [plain]
    · rfl
  simp [unescape, this]

/-! ## Characters and texts -/

theorem isPlain_ascii {c : Char} (plain : isPlain c = true) : c.toNat < 0x80 ∧ c ≠ '%' := by
  refine ⟨?_, fun h => absurd (h ▸ plain) (by decide)⟩
  rcases Bool.or_eq_true_iff.mp plain with alnum | listed
  · exact Utf8.isAlphanum_ascii alnum
  · have marks := (List.all_eq_true (p := fun x : Char => decide (x.toNat < 0x80))).mp
      (by decide) c (of_decide_eq_true listed)
    exact of_decide_eq_true marks

theorem unescape_encodeChar (c : Char) (rest : List UInt8) :
    unescape 0 (Utf8.encode (encodeChar c) ++ rest)
      = String.utf8EncodeChar c ++ unescape 0 rest := by
  unfold encodeChar
  split
  · next plain =>
    obtain ⟨ascii, other⟩ := isPlain_ascii plain
    simp only [Utf8.encode, List.flatMap_cons, List.flatMap_nil, List.append_nil,
      Utf8.encodeChar_ascii ascii, List.cons_append, List.nil_append]
    refine unescape_cons (fun h => other ?_) rest
    have same : c.toNat = '%'.toNat := by
      rw [← Utf8.toNat_ofNat (show c.toNat < 0x100 by omega), h]
      rfl
    rw [← Char.ofNat_toNat c, same]
    rfl
  · have escapes : ∀ bytes : List UInt8,
        unescape 0 (Utf8.encode (bytes.flatMap escape) ++ rest) = bytes ++ unescape 0 rest := by
      intro bytes
      induction bytes with
      | nil => rfl
      | cons b bytes ih =>
        have split : Utf8.encode ((b :: bytes).flatMap escape)
            = Utf8.encode (escape b) ++ Utf8.encode (bytes.flatMap escape) := by
          simp [Utf8.encode]
        rw [split, List.append_assoc, unescape_escape, ih, List.cons_append]
    exact escapes _

/-- Decoding undoes encoding. -/
theorem decode_encode (t : Text) : decode (encode t) = t := by
  have bytes : unescape 0 (Utf8.encode (encode t)) = Utf8.encode t := by
    induction t with
    | nil => rfl
    | cons c rest ih =>
      have split : Utf8.encode (encode (c :: rest))
          = Utf8.encode (encodeChar c) ++ Utf8.encode (encode rest) := by
        simp [Utf8.encode, encode]
      rw [split, unescape_encodeChar, ih]
      rfl
  rw [decode, bytes, Utf8.decodeLenient_encode]

end Percent

end AsmServer
