import BusNode.Digest.Sha256
import BusNode.Json.Printer
/-!
# Pair identifiers

A header and its source carry an identifier of what they were generated from. The header defines a name made of it as
an empty function, and the source expands that name, so two files made from different content do not compile
together.
-/

namespace BusNode

/-- Eight hexadecimal digits in upper case. -/
structure Identifier where
  digits : String
  deriving DecidableEq, Repr

namespace Identifier

/-- The first four bytes of the digest of the content as compact JSON. -/
def ofContent (content : Json) : Identifier :=
  ⟨String.join (((Sha256.digest content.compact.toUTF8.toList).take 4).map fun b => hexUpper 2 b.toNat)⟩

/-- The name that the header defines and the source expands. -/
def symbol (id : Identifier) (stem : String) : String := s!"{upper stem}_PROJECT_ID_{id.digits}"

/-- The lines of the header. -/
def defineLines (id : Identifier) (stem : String) : List String :=
  ["///unique ID to ensure consistency between .h and .c files",
    s!"#define {id.symbol stem} void {lower stem}_project_id_{lower id.digits}(void) \x7b\x7d"]

/-- The line of the source. -/
def checkLine (id : Identifier) (stem : String) : String := id.symbol stem

end Identifier

end BusNode
