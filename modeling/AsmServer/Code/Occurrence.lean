import AsmServer.Assembly.Result
import AsmServer.Code.Identifier

/-!
# Occurrences of a symbol

A symbol occurs wherever its name stands as a whole, not glued to further name
characters. Matches are looked for from the left and do not overlap. An occurrence
in a comment is told apart, as is the one that the assembler recorded as the
definition; every other is a reference.
-/

namespace AsmServer

/-- How an occurrence uses its symbol. -/
inductive OccurrenceKind where
  | comment
  | declaration
  | reference
  deriving DecidableEq, Repr

/-- An occurrence of a symbol. -/
structure Occurrence where
  range : Range
  kind : OccurrenceKind
  deriving DecidableEq, Repr

namespace Code

/-- The matches of `name` in `rest`, where `passed` precedes it in reverse order and the
next `skip` characters belong to a match already found. -/
def matchesFrom (name passed : Text) (skip : Nat) : Text → List Word
  | [] => []
  | c :: rest =>
    match skip with
    | k + 1 => matchesFrom name (c :: passed) k rest
    | 0 =>
      match Text.afterLead? name (c :: rest) with
      | some after =>
        ⟨passed.reverse, name, after⟩ :: matchesFrom name (c :: passed) (name.length - 1) rest
      | none => matchesFrom name (c :: passed) 0 rest

/-- Whether a match is the whole of a name. -/
def standsAlone (word : Word) : Bool :=
  !word.before.getLast?.any isNameChar && !word.after.head?.any isNameChar

/-- The places where `name` stands as a whole. -/
def wholeMatches (name line : Text) : List Word :=
  if name = [] then [] else (matchesFrom name [] 0 line).filter standsAlone

/-- How a match on line number `number` uses the symbol. The code of the line is `extent`
characters long; `definedHere` tells that the line belongs to the defining file. -/
def occurrenceKind (symbol : Symbol) (definedHere : Bool) (number extent : Nat) (word : Word) :
    OccurrenceKind :=
  if extent ≤ word.before.length then .comment
  else if definedHere ∧ symbol.line = number + 1 ∧ symbol.firstColumn = word.first then .declaration
  else .reference

/-- The occurrences on line number `number`. -/
def occurrencesOnLine (symbol : Symbol) (definedHere : Bool) (number : Nat) (line : Text) :
    List Occurrence :=
  let extent := (code line).length
  (wholeMatches symbol.name line).map fun word =>
    ⟨word.range number, occurrenceKind symbol definedHere number extent word⟩

/-- The occurrences on lines that start at number `number`. -/
def occurrencesFrom (symbol : Symbol) (definedHere : Bool) (number : Nat) :
    List Text → List Occurrence
  | [] => []
  | line :: rest =>
    occurrencesOnLine symbol definedHere number line ++
      occurrencesFrom symbol definedHere (number + 1) rest

/-- Every occurrence of a symbol, in the order of lines and columns. -/
def occurrences (symbol : Symbol) (definedHere : Bool) (lines : List Text) : List Occurrence :=
  occurrencesFrom symbol definedHere 0 lines

end Code

end AsmServer
