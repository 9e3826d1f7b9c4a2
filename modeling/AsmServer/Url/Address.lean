import AsmServer.Text.Numeral

/-!
# Internet addresses

A host may be an address in place of a name. An address of 32 bits is written as
four decimal numbers between dots. It may be read from fewer numbers, the last of
which then fills the remaining bytes, and each may be hexadecimal or octal. An
address of 128 bits has eight groups of 16 bits, in hexadecimal between colons. The
longest run of zero groups shrinks to a double colon.
-/

namespace AsmServer

/-- An address of 32 bits. -/
structure Ipv4 where
  number : Nat
  deriving DecidableEq, Repr

namespace Ipv4

/-- A number of an address in any radix; a lone mark of hexadecimal digits is zero. -/
def readNumber? : Text → Option Nat
  | ['0', 'x'] => some 0
  | '0' :: 'x' :: digits => Text.readDigits? 16 digits
  | '0' :: c :: digits => Text.readDigits? 8 (c :: digits)
  | digits => Text.readDigits? 10 digits

/-- Whether the last label of a name is numeric, so that the name must be an address. -/
def isNumeric (label : Text) : Bool :=
  (label ≠ [] && label.all Char.isDigit) || (readNumber? label).isSome

/-- The address that some bytes and a number for the remaining ones make. -/
def ofNumbers? (bytes : List Nat) (last : Nat) : Option Ipv4 :=
  if 3 < bytes.length ∨ bytes.any (255 < ·) ∨ Nat.pow 256 (4 - bytes.length) ≤ last then none
  else some ⟨bytes.foldr (fun byte more => byte * 0x1000000 + more / 256) 0 + last⟩

/-- The address of the labels of a name. -/
def ofLabels? (labels : List Text) : Option Ipv4 := do
  let numbers ← labels.mapM readNumber?
  ofNumbers? numbers.dropLast (← numbers.getLast?)

/-- The four bytes, the highest first. -/
def bytes (address : Ipv4) : List Nat :=
  [0x1000000, 0x10000, 0x100, 1].map fun unit => address.number / unit % 256

/-- Spelling of an address. -/
def text (address : Ipv4) : Text := Text.join ['.'] (address.bytes.map (Text.ofNat 10))

/-- A byte in plain decimal digits. -/
def readByte? (digits : Text) : Option Nat :=
  if digits.head? = some '0' ∧ digits ≠ ['0'] then none
  else (Text.readDigits? 10 digits).filter (· < 256)

/-- The two groups of 16 bits that an address of four bytes fills. -/
def groups? (t : Text) : Option (List Nat) :=
  match (t.splitOn '.').mapM readByte? with
  | some [a, b, c, d] => some [a * 256 + b, c * 256 + d]
  | _ => none

end Ipv4

/-- An address of 128 bits. -/
structure Ipv6 where
  groups : List Nat
  deriving DecidableEq, Repr

namespace Ipv6

/-- The number of groups. -/
def size : Nat := 8

/-- One group of up to four digits. -/
def readGroup? (digits : Text) : Option Nat :=
  if digits.length ≤ 4 then Text.readDigits? 16 digits else none

/-- Groups between colons. The last two may be written as an address of 32 bits. -/
def readGroups? : List Text → Option (List Nat)
  | [] => some []
  | [last] => ((readGroup? last).map ([·])).or (Ipv4.groups? last)
  | first :: rest => do return (← readGroup? first) :: (← readGroups? rest)

/-- The groups on one side of a double colon. -/
def readSide? (t : Text) : Option (List Nat) :=
  if t = [] then some [] else readGroups? (t.splitOn ':')

/-- Read an address. -/
def read? (t : Text) : Option Ipv6 :=
  match Text.cutAt? [':', ':'] t with
  | some (left, right) => do
    let before ← (left.splitOn ':').mapM readGroup? <|> if left = [] then some [] else none
    let after ← readSide? right
    let length := before.length + after.length
    if length < size then some ⟨before ++ List.replicate (size - length) 0 ++ after⟩ else none
  | none => do
    let groups ← readSide? t
    if groups.length = size then some ⟨groups⟩ else none

/-- Spelling of some groups. -/
def groupsText (groups : List Nat) : Text := Text.join [':'] (groups.map (Text.ofNat 16))

/-- Spelling of an address. A single zero group does not shrink. -/
def text (address : Ipv6) : Text :=
  let runs := (List.range size).map fun i => ((address.groups.drop i).takeWhile (· = 0)).length
  let longest := runs.foldl max 0
  if longest < 2 then groupsText address.groups
  else
    let start := runs.idxOf longest
    groupsText (address.groups.take start) ++ [':', ':'] ++
      groupsText (address.groups.drop (start + longest))

end Ipv6

end AsmServer
