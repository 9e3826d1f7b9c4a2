import AsmServer.Text.Numeral
import Mathlib.Data.List.Induction
import Mathlib.Data.Nat.Digits.Defs

/-!
# Numerals and what they denote

A numeral is written as any number of digits, zeros in front among them, with letters of either
case. Reading gives the number that it denotes in its radix.
-/

namespace AsmServer

namespace Text

variable {radix bound : Nat}

/-- A digit as it is written. -/
structure Digit (radix : Nat) where
  value : Fin radix
  upper : Bool := false
  deriving DecidableEq, Repr

/-- The character of a digit. -/
def Digit.char (digit : Digit radix) : Char :=
  let letter := Nat.digitChar digit.value
  if digit.upper then upperChar letter else letter

/-- The number that digits denote, the first of which counts most. -/
def denoted (digits : List (Digit radix)) : Nat :=
  Nat.ofDigits radix (digits.reverse.map (·.value.val))

/-- A numeral for a number below a bound. -/
structure Numeral (radix bound : Nat) where
  digits : List (Digit radix)
  some : digits ≠ []
  small : denoted digits < bound

/-- The number that a numeral denotes. -/
def Numeral.value (numeral : Numeral radix bound) : Nat := denoted numeral.digits

/-- The text of a numeral. -/
def Numeral.text (numeral : Numeral radix bound) : Text := numeral.digits.map Digit.char

/-- Whether the digits of a radix are told by their characters, which are neither blank nor a
sign and have one byte. -/
def Legible (radix : Nat) : Prop :=
  ∀ digit : Digit radix, digitValue? radix digit.char = some digit.value.val ∧
    isBlank digit.char = false ∧ digit.char ≠ '+' ∧ digit.char.toNat < 0x80

theorem legible_ten : Legible 10 := by
  rintro ⟨value, upper⟩
  revert value upper
  decide

theorem legible_sixteen : Legible 16 := by
  rintro ⟨value, upper⟩
  revert value upper
  decide

/-- Decimal digits have no letters. -/
theorem isDigit_char (digit : Digit 10) : digit.char.isDigit = true := by
  obtain ⟨value, upper⟩ := digit
  revert value upper
  decide

theorem denoted_concat (digits : List (Digit radix)) (digit : Digit radix) :
    denoted (digits ++ [digit]) = denoted digits * radix + digit.value := by
  simp [denoted, Nat.ofDigits_cons, Nat.mul_comm, Nat.add_comm]

/-- Reading goes digit by digit. -/
theorem Legible.foldl_digits (legible : Legible radix) (digits : List (Digit radix)) :
    (digits.map Digit.char).foldl
      (fun value? c => do some ((← value?) * radix + (← digitValue? radix c))) (some 0)
      = some (denoted digits) := by
  induction digits using List.reverseRecOn with
  | nil => rfl
  | append_singleton digits digit ih =>
    rw [List.map_append, List.foldl_append, ih, denoted_concat]
    simp [(legible digit).1]

theorem Numeral.text_ne_nil (numeral : Numeral radix bound) : numeral.text ≠ [] := by
  simp [text, numeral.some]

/-- A numeral is read as the number that it denotes. -/
theorem Legible.readNat?_text (legible : Legible radix) (numeral : Numeral radix bound) :
    readNat? radix bound numeral.text = some numeral.value := by
  have unsigned : numeral.text.head? ≠ some '+' := by
    intro sign
    obtain ⟨digit, -, same⟩ := List.mem_map.mp (List.mem_of_mem_head? sign)
    exact (legible digit).2.2.1 same
  have read : readDigits? radix numeral.text = some numeral.value := by
    rw [readDigits?, if_neg numeral.text_ne_nil]
    exact legible.foldl_digits numeral.digits
  have small : numeral.value < bound := numeral.small
  simp [readNat?, unsigned, read, small]

/-- What holds of the character of every digit holds in a numeral. -/
theorem Numeral.forall_mem_text (numeral : Numeral radix bound) (p : Char → Prop)
    (all : ∀ digit : Digit radix, p digit.char) : ∀ c ∈ numeral.text, p c :=
  List.forall_mem_map.mpr fun digit _ => all digit

theorem Legible.solid (legible : Legible radix) (numeral : Numeral radix bound) :
    ∀ c ∈ numeral.text, isBlank c = false :=
  numeral.forall_mem_text (isBlank · = false) fun digit => (legible digit).2.1

/-- The digits that a number is written with denote it. -/
theorem exists_digits (real : 1 < radix) (n : Nat) :
    ∃ digits : List (Digit radix), digits ≠ [] ∧ digits.map Digit.char = ofNat radix n ∧
      denoted digits = n := by
  induction n using Nat.strong_induction_on with
  | _ n ih =>
    rw [ofNat, Nat.toDigits_eq_if real]
    split
    · next single => exact ⟨[⟨⟨n, single⟩, false⟩], by simp, rfl, by simp [denoted]⟩
    · next more =>
      have shorter : n / radix < n := Nat.div_lt_self (by omega) real
      obtain ⟨digits, some, text, value⟩ := ih (n / radix) shorter
      have last : n % radix < radix := Nat.mod_lt n (by omega)
      refine ⟨digits ++ [⟨⟨n % radix, last⟩, false⟩], by simp, ?_, ?_⟩
      · rw [List.map_append, text]
        rfl
      · rw [denoted_concat, value]
        exact Nat.div_add_mod' n radix

/-- Every number below the bound has a numeral, which is how it is written. -/
theorem exists_numeral {n : Nat} (real : 1 < radix) (small : n < bound) :
    ∃ numeral : Numeral radix bound, numeral.text = ofNat radix n ∧ numeral.value = n := by
  obtain ⟨digits, some, text, value⟩ := exists_digits real n
  exact ⟨⟨digits, some, value ▸ small⟩, text, value⟩

theorem isDigit_of_mem_ofNat {n : Nat} {c : Char} (member : c ∈ ofNat 10 n) : c.isDigit = true :=
  Nat.isDigit_of_mem_toDigits (by decide) (by decide) member

theorem not_mem_ofNat {c : Char} (other : c.isDigit = false) (n : Nat) : c ∉ ofNat 10 n := by
  intro member
  simp [isDigit_of_mem_ofNat member] at other

theorem ofNat_ne_nil (n : Nat) : ofNat 10 n ≠ [] := Nat.toDigits_ne_nil

/-! ## Integers -/

theorem Legible.readDigits?_ofNat (legible : Legible radix) (real : 1 < radix) (n : Nat) :
    readDigits? radix (ofNat radix n) = some n := by
  obtain ⟨digits, some, text, value⟩ := exists_digits real n
  have written : digits.map Digit.char ≠ [] := by simpa using some
  rw [← text, readDigits?, if_neg written, legible.foldl_digits, value]

/-- An integer in range is read as it is written. -/
theorem readInt?_ofInt {n : Int} (least : -(bound : Int) ≤ n) (below : n < bound) :
    readInt? 10 bound (ofInt n) = some n := by
  have digits : readDigits? 10 (ofNat 10 n.natAbs) = some n.natAbs :=
    legible_ten.readDigits?_ofNat (by decide) n.natAbs
  by_cases negative : n < 0
  · have small : n.natAbs ≤ bound := by omega
    simp [ofInt, negative, readInt?, digits, Option.filter_some, small, abs_of_neg negative]
  · have small : n.natAbs < bound := by omega
    have size : (n.natAbs : Int) = n := by omega
    obtain ⟨c, rest, written⟩ := List.exists_cons_of_ne_nil (ofNat_ne_nil n.natAbs)
    have digit : c.isDigit = true := isDigit_of_mem_ofNat (by
      rw [written]
      exact List.mem_cons_self)
    have minus : c ≠ '-' := by rintro rfl; cases digit
    have plus : c ≠ '+' := by rintro rfl; cases digit
    rw [written] at digits
    simp [ofInt, negative, written, readInt?, minus, readNat?, plus, digits, small, size]

/-- No other character stands in an integer than its digits and a minus sign. -/
theorem not_mem_ofInt {c : Char} (other : c.isDigit = false) (minus : c ≠ '-') (n : Int) :
    c ∉ ofInt n := by
  unfold ofInt
  split
  · simp [minus, not_mem_ofNat other]
  · exact not_mem_ofNat other _

end Text

end AsmServer
