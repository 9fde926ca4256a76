import BusNode.Code.Literal
import BusNode.Text.Bytes
/-!
# Concise device configuration

The writes that a manager sends to a device at startup, as bytes with the lowest byte of a number first: the number of
writes in four bytes, and for each write the index in two, the sub-index in one, the length of the payload in four,
and the payload.
-/

namespace BusNode.CanOpen

/-- One write to the object dictionary of a device. -/
structure Write where
  index : UInt16
  sub : UInt8
  payload : List UInt8
  comment : String
  deriving DecidableEq, Repr

namespace Write

def byte (index : UInt16) (sub value : UInt8) (comment : String) : Write := ⟨index, sub, [value], comment⟩

def short (index : UInt16) (sub : UInt8) (value : UInt16) (comment : String) : Write :=
  ⟨index, sub, littleEndian 2 value.toNat, comment⟩

def long (index : UInt16) (sub : UInt8) (value : UInt32) (comment : String) : Write :=
  ⟨index, sub, littleEndian 4 value.toNat, comment⟩

/-- The number of its bytes. -/
def encodedLength (w : Write) : Nat := 7 + w.payload.length

def bytes (w : Write) : List UInt8 :=
  littleEndian 2 w.index.toNat ++ w.sub :: littleEndian 4 w.payload.length ++ w.payload

/-- Blanks after a write, so that comments after payloads of one, two and four bytes stand in one column. -/
def padding (w : Write) : Nat :=
  match w.payload.length with
  | 1 => 21
  | 2 => 14
  | _ => 0

/-- The address and the comment. -/
def note (w : Write) : String := s!"0x{hexUpper 4 w.index.toNat}:{hexUpper 2 w.sub.toNat} {w.comment}"

end Write

/-- The writes to one device in order. -/
structure Dcf where
  writes : List Write
  deriving DecidableEq, Repr

namespace Dcf

def bytes (d : Dcf) : List UInt8 := littleEndian 4 d.writes.length ++ d.writes.flatMap Write.bytes

-- Sums begin at the numeral zero, also where the zero of monoids is known.
attribute [local instance (high)] Zero.ofOfNat0

/-- The number of its bytes. -/
def size (d : Dcf) : Nat := 4 + (d.writes.map Write.encodedLength).sum

/-- A line of byte literals with its comment; only the last line has no comma before the comment. -/
def line (isLast : Bool) (bytes : List UInt8) (padding : Nat) (comment : String) : String :=
  ", ".intercalate (bytes.map Literal.hexByte) ++ (if isLast then " " else ",") ++
    String.ofList (List.replicate padding ' ') ++ s!" /* {comment} */"

/-- The lines of writes, the last of which ends the initializer. -/
def writeLines : List Write → List String
  | [] => []
  | w :: ws => line ws.isEmpty w.bytes w.padding w.note :: writeLines ws

/-- The lines of an initializer: one for the number of writes, and one for each write. -/
def lines (d : Dcf) : List String :=
  line d.writes.isEmpty (littleEndian 4 d.writes.length) 0 "number of entries" :: writeLines d.writes

end Dcf

end BusNode.CanOpen
