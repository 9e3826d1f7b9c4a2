import AsmServer.Text.Basic

/-!
# Punycode

Host names are ASCII. A label with other characters is written as its ASCII
characters, a hyphen if there are any, and digits of base 36 that say which
characters are to be inserted where. The insertions are ordered by character, then
by position, and each is written as the number of insertions skipped since the one
before it, so that equal and neighbouring characters take few digits.

A number ends with the first digit below a threshold, and the thresholds follow the
size of the numbers written so far through `adapt`.
-/

namespace AsmServer

namespace Punycode

/-- The value of a digit: letters of either case, then the decimal digits. -/
def digitValue? (c : Char) : Option Nat :=
  if c.isAlpha then some ((Text.lowerChar c).toNat - 'a'.toNat)
  else if c.isDigit then some (c.toNat - '0'.toNat + 26)
  else none

/-- The digit of a value below 36. -/
def digit (value : Nat) : Char :=
  if value < 26 then Char.ofNat ('a'.toNat + value) else Char.ofNat ('0'.toNat + value - 26)

/-- The threshold of the digit at `place`, which counts in steps of 36. -/
def threshold (place bias : Nat) : Nat := max 1 (min 26 (place - bias))

theorem threshold_pos (place bias : Nat) : 0 < threshold place bias :=
  Nat.lt_of_lt_of_le Nat.one_pos (Nat.le_max_left ..)

/-- The bias for a typical number `n`, and `place` for every division that makes it small. -/
def biasOf (place n : Nat) : Nat :=
  if 455 < n then biasOf (place + 36) (n / 35) else place + 36 * n / (n + 38)
termination_by n

/-- The bias after the number `delta`, which led to the insertion that made the text
`length` characters long. -/
def adapt (delta length : Nat) (first : Bool) : Nat :=
  let scaled := if first then delta / 700 else delta / 2
  biasOf 0 (scaled + scaled / length)

/-- The bias at the start. -/
def startBias : Nat := 72

/-- The first character number outside ASCII. -/
def startPoint : Nat := 128

/-- Whether the character is in ASCII. -/
def isAscii (c : Char) : Bool := c.toNat < startPoint

/-! ## Reading -/

/-- Read a number from its digits, the least first, and what follows it. -/
def readNumber? (bias place weight : Nat) : Text → Option (Nat × Text)
  | [] => none
  | c :: rest => do
    let value ← digitValue? c
    let limit := threshold place bias
    if value < limit then some (value * weight, rest)
    else
      let (more, rest) ← readNumber? bias (place + 36) (weight * (36 - limit)) rest
      some (value * weight + more, rest)

/-- A number takes at least one digit. -/
theorem length_of_readNumber? {bias place weight n : Nat} {t rest : Text}
    (h : readNumber? bias place weight t = some (n, rest)) : rest.length < t.length := by
  induction t generalizing place weight n rest with
  | nil => simp [readNumber?] at h
  | cons c t ih =>
    simp only [readNumber?, Option.bind_eq_bind, Option.bind_eq_some_iff] at h
    obtain ⟨value, -, h⟩ := h
    split at h
    · simp_all
    · obtain ⟨⟨more, tail⟩, read, h⟩ := Option.bind_eq_some_iff.mp h
      have shorter := ih read
      simp_all
      omega

/-- Make the insertions that the digits describe. The last one was of the character numbered
`point` and ended before `position` in `done`. -/
def insertAll? (bias point position : Nat) (done digits : Text) : Option Text :=
  if digits = [] then some done
  else
    match h : readNumber? bias 36 1 digits with
    | none => none
    | some (delta, rest) =>
      let length := done.length + 1
      let next := point + (position + delta) / length
      let place := (position + delta) % length
      if next.isValidChar then
        insertAll? (adapt delta length (position == 0)) next (place + 1)
          (done.insertIdx place (Char.ofNat next)) rest
      else none
termination_by digits.length
decreasing_by exact length_of_readNumber? h

/-- The label that a text without its mark stands for. -/
def decode? (t : Text) : Option Text :=
  match Text.cutAtLast? ['-'] t with
  | some (c :: plain, digits) => insertAll? startBias startPoint 0 (c :: plain) digits
  | _ => insertAll? startBias startPoint 0 [] t

/-! ## Writing -/

/-- Digits of a number, the least first. -/
def writeNumber (bias place n : Nat) : Text :=
  let limit := threshold place bias
  if n < limit then [digit n]
  else
    digit (limit + (n - limit) % (36 - limit)) ::
      writeNumber bias (place + 36) ((n - limit) / (36 - limit))
termination_by n
decreasing_by
  have := threshold_pos place bias
  exact Nat.lt_of_le_of_lt (Nat.div_le_self _ _) (by omega)

/-- The state of writing: the digits so far, the insertions skipped since the last, the
bias, and how many characters stand. -/
structure Writer where
  digits : Text := []
  skipped : Nat := 0
  bias : Nat := startBias
  standing : Nat

/-- Pass one character of the label, or write its insertion if it is number `point`. -/
def Writer.pass (plain point : Nat) (w : Writer) (c : Char) : Writer :=
  if c.toNat < point then { w with skipped := w.skipped + 1 }
  else if c.toNat = point then
    { digits := w.digits ++ writeNumber w.bias 36 w.skipped
      skipped := 0
      bias := adapt w.skipped (w.standing + 1) (w.standing == plain)
      standing := w.standing + 1 }
  else w

/-- Write the insertions of the characters numbered `points`, in ascending order, where all
below `next` stand. -/
def writeAll (label : Text) (plain next : Nat) (w : Writer) : List Nat → Text
  | [] => w.digits
  | point :: points =>
    let here := { w with skipped := w.skipped + (point - next) * (w.standing + 1) }
    let after := label.foldl (Writer.pass plain point) here
    writeAll label plain (point + 1) { after with skipped := after.skipped + 1 } points

/-- The text that stands for a label, without its mark. -/
def encode (label : Text) : Text :=
  let plain := label.filter isAscii
  let points := ((label.filter (!isAscii ·)).map Char.toNat).eraseDups.mergeSort
  (if plain = [] then [] else plain ++ ['-']) ++
    writeAll label plain.length startPoint { standing := plain.length } points

end Punycode

end AsmServer
