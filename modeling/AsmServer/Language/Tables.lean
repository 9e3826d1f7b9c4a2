import AsmServer.Language.Basic

/-!
# The language tables

Every instruction of the 6502 in the order of its mnemonics, every pseudo-op and
every register, with the texts that editors show for them, and the extensions by
which source and include files are known.
-/

namespace AsmServer

namespace Language

/-- Extensions of source files. -/
def sourceExtensions : List Text := [".dasm", ".asm", ".a"].map String.toList

/-- Extensions of include files. -/
def includeExtensions : List Text := [".h"].map String.toList

/-- The instructions. -/
def instructions : List Instruction := [
  .of "ADC" "ADd to accumulator with Carry"
    "Arithmetic",
  .of "AND" "AND memory with accumulator"
    "Logical",
  .of "ASL" "Accumulator Shift Left"
    "Shift and Rotate",
  .of "BCC" "Branch on Carry Clear (C = 0)"
    "Jump, Branch, Compare, and Test",
  .of "BCS" "Branch on Carry Set (C = 1)"
    "Jump, Branch, Compare, and Test",
  .of "BEQ" "Branch on EQual to zero (Z = 1)"
    "Jump, Branch, Compare, and Test",
  .of "BIT" "test BITs"
    "Jump, Branch, Compare, and Test",
  .of "BMI" "Branch on MInus (N = 1)"
    "Jump, Branch, Compare, and Test",
  .of "BNE" "Branch on Not Equal to zero (Z = 0)"
    "Jump, Branch, Compare, and Test",
  .of "BPL" "Branch on PLus (N = 0)"
    "Jump, Branch, Compare, and Test",
  .of "BRK" "BReaK"
    "Other",
  .of "BVC" "Branch on oVerflow Clear (V = 0)"
    "Jump, Branch, Compare, and Test",
  .of "BVS" "Branch on oVerflow Set (V = 1)"
    "Jump, Branch, Compare, and Test",
  .of "CLC" "CLear Carry flag"
    "Set and Reset (Clear)",
  .of "CLD" "CLear Decimal mode"
    "Set and Reset (Clear)",
  .of "CLI" "CLear Interrupt disable"
    "Set and Reset (Clear)",
  .of "CLV" "CLear oVerflow flag"
    "Set and Reset (Clear)",
  .of "CMP" "CoMPare memory and accumulator"
    "Jump, Branch, Compare, and Test",
  .of "CPX" "ComPare memory and X"
    "Jump, Branch, Compare, and Test",
  .of "CPY" "ComPare memory and Y"
    "Jump, Branch, Compare, and Test",
  .of "DEC" "DECrement memory by one"
    "Increment and Decrement",
  .of "DEX" "DEcrement X by one"
    "Increment and Decrement",
  .of "DEY" "DEcrement Y by one"
    "Increment and Decrement",
  .of "EOR" "Exclusive-OR memory with Accumulator"
    "Logical",
  .of "INC" "INCrement memory by one"
    "Increment and Decrement",
  .of "INX" "INcrement X by one"
    "Increment and Decrement",
  .of "INY" "INcrement Y by one"
    "Increment and Decrement",
  .of "JMP" "JuMP to another location (GOTO)"
    "Jump, Branch, Compare, and Test",
  .of "JSR" "Jump to SubRoutine"
    "Subroutine",
  .of "LDA" "LoaD the Accumulator"
    "Load and Store",
  .of "LDX" "LoaD the X register"
    "Load and Store",
  .of "LDY" "LoaD the Y register"
    "Load and Store",
  .of "LSR" "Logical Shift Right"
    "Shift and Rotate",
  .of "NOP" "No OPeration"
    "Other",
  .of "ORA" "OR memory with Accumulator"
    "Logical",
  .of "PHA" "PusH Accumulator on stack"
    "Transfer",
  .of "PHP" "PusH Processor status on stack"
    "Transfer",
  .of "PLA" "PulL Accumulator from stack"
    "Transfer",
  .of "PLP" "PulL Processor status from stack"
    "Transfer",
  .of "ROL" "ROtate Left"
    "Shift and Rotate",
  .of "ROR" "ROtate Right"
    "Shift and Rotate",
  .of "RTI" "ReTurn from Interrupt"
    "Subroutine",
  .of "RTS" "ReTurn from Subroutine"
    "Subroutine",
  .of "SBC" "SuBtract from accumulator with Carry"
    "Arithmetic",
  .of "SEC" "SEt Carry"
    "Set and Reset (Clear)",
  .of "SED" "SEt Decimal mode"
    "Set and Reset (Clear)",
  .of "SEI" "SEt Interrupt disable"
    "Set and Reset (Clear)",
  .of "STA" "STore the Accumulator"
    "Load and Store",
  .of "STX" "STore the X register"
    "Load and Store",
  .of "STY" "STore the Y register"
    "Load and Store",
  .of "TAX" "Transfer Accumulator to X"
    "Transfer",
  .of "TAY" "Transfer Accumulator to Y"
    "Transfer",
  .of "TSX" "Transfer Stack pointer to X"
    "Stack",
  .of "TXA" "Transfer X to accumulator"
    "Transfer",
  .of "TXS" "Transfer X to Stack pointer"
    "Stack",
  .of "TYA" "Transfer Y to Accumulator"
    "Transfer"]

/-- The pseudo-ops. -/
def pseudoOps : List PseudoOp := [
  .of "PROCESSOR" [] false "Sets the processor model"
    ["Determines byte order and integer formats for the assembled data.",
     "Can only be executed once, and should be the first thing encountered by the assembler."],
  .of "SEG" [] true "Creates or sets the current segment"
    ["Sets the current segment, creating it if neccessary."],
  .of "SEG.U" [] true "Creates or sets the current segment"
    ["Sets the current segment, creating it (in uninitialized form) if neccessary."],
  .of "INCLUDE" [] false "Includes a file"
    ["Include another assembly file at this location."],
  .of "INCBIN" [] true "Includes a file literally"
    ["Include another file literally in the output."],
  .of "INCDIR" [] true "Add a dir to the list of include folders"
    ["Add the given directory name to the list of places where INCLUDE and INCBIN search their files.",
     "First, the names are tried relative to the current directory, if that fails and the name is not an absolute pathname, the list is tried."],
  .of "DC" ["DC.B", "BYTE"] true "Declare data (byte)"
    ["Declare data in the current segment. No output is generated if within a .U segment.",
     "Note that the byte ordering for the selected processor is used for each entry."],
  .of "DC.W" ["WORD"] true "Declare data (word)"
    ["Declare data in the current segment. No output is generated if within a .U segment.",
     "Note that the byte ordering for the selected processor is used for each entry."],
  .of "DC.L" ["LONG"] true "Declare data (long)"
    ["Declare data in the current segment. No output is generated if within a .U segment.",
     "Note that the byte ordering for the selected processor is used for each entry."],
  .of "DS" ["DS.B"] true "Declare space (byte)"
    ["Declare space. Data is not generated if within an uninitialized segment.",
     "Note that the number of bytes generated is exp * entrysize (1, 2, or 4)"],
  .of "DS.W" [] true "Declare space (word)"
    ["Declare space. Data is not generated if within an uninitialized segment.",
     "Note that the number of bytes generated is exp * entrysize (1, 2, or 4)"],
  .of "DS.L" [] true "Declare space (long)"
    ["Declare space. Data is not generated if within an uninitialized segment.",
     "Note that the number of bytes generated is exp * entrysize (1, 2, or 4)"],
  .of "DV" ["DV.B"] true "Declare data (byte) with assignment"
    ["Declare data in the current segment.",
     "This is equivalent to DC, but each exp in the list is passed through the symbolic expression specified by the EQM label.",
     "The expression is held in a special symbol dotdot '..' on each call to the EQM label."],
  .of "DV.W" [] true "Declare data (word) with assignment"
    ["Declare data in the current segment.",
     "This is equivalent to DC, but each exp in the list is passed through the symbolic expression specified by the EQM label.",
     "The expression is held in a special symbol dotdot '..' on each call to the EQM label."],
  .of "DV.L" [] true "Declare data (long) with assignment"
    ["Declare data in the current segment.",
     "This is equivalent to DC, but each exp in the list is passed through the symbolic expression specified by the EQM label.",
     "The expression is held in a special symbol dotdot '..' on each call to the EQM label."],
  .of "HEX" [] true "Sets down raw HEX data" [],
  .of "ERR" [] false "Abort assembly" [],
  .of "ORG" [] true "Sets the current origin" [],
  .of "RORG" [] true "Activates the relocatable origin" [],
  .of "ECHO" [] false "Writes expressions"
    ["The expressions (which may also be strings), are echoed on the screen and into the list file."],
  .of "REND" [] true "Deactivate the relocatable origin for the current segment" [],
  .of "ALIGN" [] true "Align the current PC to an N byte boundry" [],
  .of "SUBROUTINE" [] true "Creates sets of temporary labels"
    ["This isn't really a subroutine, but a boundary between sets of temporary labels (which begin with a dot)."],
  .of "MAC" [] false "Declares a macro" [],
  .of "ENDM" [] false "End of macro definition" [],
  .of "MEXIT" [] false "Conditionally exits the current macro level with " [],
  .of "IFCONST" [] true "TRUE when the expression result is defined" [],
  .of "IFNCONST" [] true "TRUE when the expression result is undefined" [],
  .of "IF" [] true "Conditional expression"
    ["TRUE if the expression result is defined AND non-zero. Is FALSE if the expression result is defined AND zero."],
  .of "ELSE" [] true "Conditional expression"
    ["ELSE the current IF."],
  .of "ENDIF" ["EIF"] true "Conditional expression"
    ["Terminates an IF. ENDIF and EIF are equivalent."],
  .of "REPEAT" [] true "Looping"
    ["Repeat code between REPEAT/REPEND 'exp' times"],
  .of "REPEND" [] true "Looping"
    ["Repeat code between REPEAT/REPEND 'exp' times"],
  .of "LIST" [] true "List control"
    ["Globally turns listing on or off, starting with the current line."]]

/-- The registers. -/
def registers : List Register := [
  .of "PC" "Program Counter" 16,
  .of "AC" "Accumulator" 8,
  .of "X" "X Index" 8,
  .of "Y" "Y Index" 8,
  .of "SR" "Processor Status flags in NV-BDIZC format" 8,
  .of "SP" "Stack Pointer" 8]

end Language

end AsmServer
