import AsmServer.Code.Identifier
import AsmServer.Language.Lookup
import AsmServer.Workspace.Project

/-!
# Hovering over a word

A word is explained as an instruction, a pseudo-op, a symbol of the latest assembly
or a register, whichever comes first in this order. Explanations are Markdown
paragraphs.
-/

namespace AsmServer

/-- A value in the notations of the assembler: decimal, binary, octal, hexadecimal.
The sign of a negative value stands behind the mark of the notation. -/
def valueText (value : Int) : Text :=
  let sign := if value < 0 then "-".toList else []
  let size := value.natAbs
  "* Decimal: `".toList ++ Text.ofInt value ++
    "`\n* Binary: `%".toList ++ sign ++ Text.ofNat 2 size ++
    "`\n* Octal: `0".toList ++ sign ++ Text.ofNat 8 size ++
    "`\n* Hexa: `$".toList ++ sign ++ Text.ofNat 16 size ++ "`".toList

/-- An explanation of a word. -/
structure Hover where
  /-- Markdown text. -/
  text : Text
  range : Range
  deriving DecidableEq, Repr

namespace Hover

/-- Paragraphs about an instruction. -/
def aboutInstruction (i : Instruction) : List Text :=
  ["(instruction) `".toList ++ i.name ++ "`: ".toList ++ i.description]

/-- Paragraphs about a pseudo-op. -/
def aboutPseudoOp (op : PseudoOp) : List Text :=
  ("(pseudo-op) `".toList ++ op.name ++ "`: ".toList ++ op.description) :: op.documentation

/-- Paragraphs about a symbol. -/
def aboutSymbol (symbol : Symbol) : List Text :=
  let kind := if symbol.isLabel then "label".toList else "symbol".toList
  ['(' :: kind ++ ") `".toList ++ symbol.name ++ "`".toList, valueText symbol.value]

/-- Paragraphs about a register. -/
def aboutRegister (register : Register) : List Text :=
  ['`' :: register.name ++ "` (register)".toList,
    register.description ++ " (".toList ++ Text.ofNat 10 register.bits ++ "-bit)".toList]

/-- Paragraphs about a word. -/
def about? (result? : Option AssemblyResult) (word : Text) : Option (List Text) :=
  ((Language.instruction? word).map aboutInstruction).or <|
    ((Language.pseudoOp? word).map aboutPseudoOp).or <|
      ((result?.bind (·.symbol? word)).map aboutSymbol).or <|
        (Language.register? word).map aboutRegister

/-- The explanation of the word at a position. -/
def at? (p : Project) (uri : Uri) (position : Position) : Option Hover := do
  let file ← p.registry.find? uri
  let line ← file.line? position.line
  let word ← Code.identifierAt? line position.column
  let paragraphs ← about? p.result? word.text
  return ⟨Text.join "\n\n".toList paragraphs, word.range position.line⟩

end Hover

end AsmServer
