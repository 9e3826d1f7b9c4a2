import AsmServer.Code.Line

/-!
# Identifiers under a cursor

Names are made of ASCII letters and digits, underscores and dots, which local
labels start with. The identifier at a cursor is the whole run of such characters
around it, and a cursor directly behind a name still belongs to that name.
Comments hold no identifiers.
-/

namespace AsmServer

namespace Code

/-- The characters of names. -/
def isNameChar (c : Char) : Bool := c.isAlphanum || c == '_' || c == '.'

/-- The identifier at `column` of a line. -/
def identifierAt? (line : Text) (column : Nat) : Option Word := do
  let (left, _) ← Text.splitAtColumn? column line
  let code := code line
  if code.length < left.length then none
  let right := code.drop left.length
  let text := Text.takeEndWhile isNameChar left ++ right.takeWhile isNameChar
  if text = [] then none
  return ⟨Text.dropEndWhile isNameChar left, text, right.dropWhile isNameChar⟩

end Code

end AsmServer
