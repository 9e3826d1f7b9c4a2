import AsmServer.Text.Composition
import AsmServer.Text.Direction
import AsmServer.Text.Joining
import AsmServer.Url.FoldTable
import AsmServer.Url.Punycode

/-!
# Domains

A domain is a sequence of labels between dots. It is compared by its folded and canonical
characters, and known to the network by ASCII characters alone: a label with others is
written in Punycode behind a mark. A label with the mark must stand for one that needs it,
and that is folded and canonical already.

Labels must not mislead the eye: they do not start with a combining mark, hold joiners only
where these matter, and run one way when the domain has a script from right to left.
-/

namespace AsmServer

namespace Url

/-- What a character of a domain becomes, if a domain may hold it. -/
def fold? (c : Char) : Option Text :=
  if Punycode.isAscii c then some [Text.lowerChar c]
  else
    match foldTable.findSome? (·.image? c.toNat) with
    | some target => some (target.map Char.ofNat)
    | none =>
      if Text.inRanges silentRanges c.toNat then some []
      else if Text.inRanges refusedRanges c.toNat then none
      else some [c]

/-- Whether a text is what folding and composition make of it. -/
def isSettled (t : Text) : Bool := t.all (fun c => fold? c = some [c]) && Text.canonical t = t

/-- A label of a domain. -/
structure Label where
  /-- The characters that the eye sees. -/
  shown : Text
  /-- The spelling for the network. -/
  ascii : Text
  deriving DecidableEq, Repr

namespace Label

/-- What a label in Punycode starts with. -/
def mark : Text := "xn--".toList

/-- The greatest number of characters that are written in Punycode. -/
def maxLength : Nat := 1000

/-- The greatest number of characters that are read as Punycode. -/
def maxCodeLength : Nat := 2000

/-- Whether the characters of a label may stand side by side. -/
def isOrderly (shown : Text) : Bool :=
  !shown.head?.any Text.isMark && Text.joinersMatter [] shown

/-- Read a label of which all characters are folded and canonical. -/
def read? (t : Text) : Option Label :=
  match Text.afterLead? mark t with
  | some code => do
    if !t.all Punycode.isAscii ∨ maxCodeLength < code.length then none
    let shown ← Punycode.decode? code
    if isSettled shown && isOrderly shown && !shown.all Punycode.isAscii then some ⟨shown, t⟩
    else none
  | none =>
    if t.all Punycode.isAscii then some ⟨t, t⟩
    else if isOrderly t && t.length ≤ maxLength then some ⟨t, mark ++ Punycode.encode t⟩
    else none

end Label

/-- The labels of a domain. -/
def readLabels? (t : Text) : Option (List Label) := do
  let folded ← t.mapM fold?
  let labels ← ((Text.canonical folded.flatten).splitOn '.').mapM Label.read?
  if labels.any (Text.isRightToLeft ·.shown) ∧ !labels.all (Text.runsOneWay ·.shown) then none
  else some labels

/-- The spelling of a domain for the network. -/
def asciiDomain? (t : Text) : Option Text :=
  (readLabels? t).map fun labels => Text.join ['.'] (labels.map (·.ascii))

end Url

end AsmServer
