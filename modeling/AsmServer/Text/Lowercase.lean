import AsmServer.Text.CaseTables

/-!
# Lower case of any alphabet

Lower-casing follows Unicode without regard to language. Two letters are not
simple: the dotted capital I becomes an i with a combining dot, and the capital
sigma takes its final form at the end of a word. A sigma ends a word when a cased
character stands before it and none after it, characters that case looks through
being passed over on both sides.
-/

namespace AsmServer

namespace Text

/-- Whether case looks through the character. -/
def isCaseIgnorable (c : Char) : Bool := inRanges caseIgnorableRanges c.toNat

/-- Whether the first character that case does not look through has case. -/
def meetsCased (t : Text) : Bool :=
  (t.dropWhile isCaseIgnorable).head?.any fun c => inRanges casedRanges c.toNat

/-- Lower-case form of a character on its own. -/
def lowercaseChar (c : Char) : Text :=
  if c = '\u0130' then ['i', '\u0307']
  else [((lowerRuns.findSome? (·.lower? c.toNat)).map Char.ofNat).getD c]

/-- Lower-case `rest`, where `seen` stands before it in reverse order. -/
def lowercaseAfter (seen : Text) : Text → Text
  | [] => []
  | c :: rest =>
    let here :=
      if c = 'Σ' then [if meetsCased seen && !meetsCased rest then 'ς' else 'σ']
      else lowercaseChar c
    here ++ lowercaseAfter (c :: seen) rest

/-- Lower-case form of a text. -/
def lowercase (t : Text) : Text := lowercaseAfter [] t

end Text

end AsmServer
