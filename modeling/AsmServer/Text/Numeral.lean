import AsmServer.Text.Basic

/-!
# Numerals

Reading is strict: every character must be a digit of the radix, at least one
digit must be there, and the value must fit its bound. One plus sign may lead,
and a minus sign where negative numbers exist. Digits above nine are letters of
either case when read and lower-case letters when written.
-/

namespace AsmServer

namespace Text

/-- The value of a digit or letter, if it is a digit of `radix`. -/
def digitValue? (radix : Nat) (c : Char) : Option Nat :=
  let value? : Option Nat :=
    if '0' ≤ c ∧ c ≤ '9' then some (c.toNat - '0'.toNat)
    else if 'a' ≤ c ∧ c ≤ 'z' then some (c.toNat - 'a'.toNat + 10)
    else if 'A' ≤ c ∧ c ≤ 'Z' then some (c.toNat - 'A'.toNat + 10)
    else none
  value?.filter (· < radix)

/-- The number that a nonempty run of digits denotes. -/
def readDigits? (radix : Nat) (t : Text) : Option Nat :=
  if t = [] then none
  else t.foldl (fun value? c => do some ((← value?) * radix + (← digitValue? radix c))) (some 0)

/-- A number below `bound`, with an optional plus sign. -/
def readNat? (radix bound : Nat) (t : Text) : Option Nat :=
  let digits := if t.head? = some '+' then t.tail else t
  (readDigits? radix digits).filter (· < bound)

/-- A number from `-bound` up to `bound - 1`, with an optional sign. -/
def readInt? (radix bound : Nat) (t : Text) : Option Int :=
  match t with
  | '-' :: digits => ((readDigits? radix digits).filter (· ≤ bound)).map fun n => -(n : Int)
  | _ => (readNat? radix bound t).map Int.ofNat

/-- Bound of an unsigned number of 8 bits. -/
def bound8 : Nat := 0x100

/-- Bound of an unsigned number of 32 bits. -/
def bound32 : Nat := 0x100000000

/-- Bound of the size of a signed number of 64 bits. -/
def bound63 : Nat := 0x8000000000000000

/-- Digits of a natural number, without leading zeros. -/
def ofNat (radix n : Nat) : Text := Nat.toDigits radix n

/-- Decimal digits of an integer, after a minus sign if it is negative. -/
def ofInt (n : Int) : Text := if n < 0 then '-' :: ofNat 10 n.natAbs else ofNat 10 n.natAbs

end Text

end AsmServer
