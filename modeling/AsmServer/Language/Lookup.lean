import AsmServer.Language.Tables
import AsmServer.Path

/-!
# Looking up words of the language

Lookups ignore the case of ASCII letters. A pseudo-op may be written with one dot
in front, unless its name with the dot is known itself.
-/

namespace AsmServer

namespace Language

/-- The instruction of a mnemonic. -/
def instruction? (name : Text) : Option Instruction :=
  instructions.find? (·.name == Text.upper name)

/-- The pseudo-op that has the upper-case name `name`. -/
def pseudoOpNamed? (name : Text) : Option PseudoOp := pseudoOps.find? (name ∈ ·.names)

/-- The pseudo-op of a name, with or without a dot in front. -/
def pseudoOp? (name : Text) : Option PseudoOp :=
  let name := Text.upper name
  (pseudoOpNamed? name).or ((Text.afterLead? ['.'] name).bind pseudoOpNamed?)

/-- The register of a name. -/
def register? (name : Text) : Option Register := registers.find? (·.name == Text.upper name)

/-- Whether a path has the extension of a source or include file. -/
def isSourceFile (path : Text) : Bool :=
  (Path.extension? path).any fun extension =>
    (sourceExtensions ++ includeExtensions).any fun known =>
      Text.sameIgnoringCase (known.dropWhile (· = '.')) extension

end Language

end AsmServer
