/-!
# Positions and ranges

Positions count lines and columns from zero; columns are UTF-16 code units. A
range ends before its end position. All ranges of the server lie on one line.
-/

namespace AsmServer

/-- A place in a document. -/
structure Position where
  line : Nat := 0
  column : Nat := 0
  deriving DecidableEq, Repr, Inhabited

/-- The text from `start` up to `stop`. -/
structure Range where
  start : Position := {}
  stop : Position := {}
  deriving DecidableEq, Repr, Inhabited

/-- The columns from `first` up to `last` of one line. -/
def Range.onLine (line first last : Nat) : Range := ⟨⟨line, first⟩, ⟨line, last⟩⟩

end AsmServer
