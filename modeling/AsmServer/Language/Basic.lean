import AsmServer.Text.Basic

/-!
# Words of the assembly language

What an editor can say about a mnemonic, a pseudo-op or a register. Names are kept
in upper case; alternate names of a pseudo-op lead to the same entry.
-/

namespace AsmServer

/-- A mnemonic of the 6502. -/
structure Instruction where
  name : Text
  description : Text
  /-- Kind of instruction, such as arithmetic or transfer. -/
  group : Text
  deriving DecidableEq, Repr

/-- A directive to the assembler. -/
structure PseudoOp where
  name : Text
  /-- Other spellings that the assembler accepts. -/
  otherNames : List Text
  canHaveLabel : Bool
  description : Text
  /-- Paragraphs that explain it. -/
  documentation : List Text
  deriving DecidableEq, Repr

/-- A register of the processor. -/
structure Register where
  name : Text
  description : Text
  bits : Nat
  deriving DecidableEq, Repr

/-- Table entry of an instruction. -/
def Instruction.of (name description group : String) : Instruction :=
  ⟨name.toList, description.toList, group.toList⟩

/-- Table entry of a pseudo-op. -/
def PseudoOp.of (name : String) (otherNames : List String) (canHaveLabel : Bool)
    (description : String) (documentation : List String) : PseudoOp :=
  ⟨name.toList, otherNames.map String.toList, canHaveLabel, description.toList,
    documentation.map String.toList⟩

/-- Table entry of a register. -/
def Register.of (name description : String) (bits : Nat) : Register :=
  ⟨name.toList, description.toList, bits⟩

/-- Every name of a pseudo-op, the main one first. -/
def PseudoOp.names (op : PseudoOp) : List Text := op.name :: op.otherNames

end AsmServer
