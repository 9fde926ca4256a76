import BusNode.Datapool.Basic
import BusNode.Text.Digit
/-!
# Names in generated code

The names that the run-time library and its coding rules give to types, variables and buses.
-/

namespace BusNode

namespace ScalarType

/-- The type in the run-time library. -/
def cType : ScalarType → String
  | .u8 => "uint8"
  | .s8 => "sint8"
  | .u16 => "uint16"
  | .s16 => "sint16"
  | .u32 => "uint32"
  | .s32 => "sint32"
  | .u64 => "uint64"
  | .s64 => "sint64"
  | .f32 => "float32"
  | .f64 => "float64"

/-- What the name of a variable of the type starts with; an array has an `a` in front. -/
def marker (isArray : Bool) (t : ScalarType) : String := (if isArray then "a" else "") ++ lower t.name

/-- The tag of the type in the element table. -/
def tag (isArray : Bool) (t : ScalarType) : String :=
  "OSY_DPA_ELEMENT_TYPE_" ++ (if isArray then "A" else "") ++ upper t.cType

end ScalarType

namespace Element

/-- The struct member that holds the element. -/
def member (e : Element) : String := s!"{e.type.marker e.isArray}_{e.name}"

/-- The declaration of that member. -/
def declaration (e : Element) : String :=
  match e.arraySize with
  | some n => s!"{e.type.cType} {e.member}[{decimal n.toNat}];"
  | none => s!"{e.type.cType} {e.member};"

end Element

/-- The name of a CAN bus; buses are counted from 1. -/
def busName (interface : UInt8) : String := s!"CAN{decimal (interface.toNat + 1)}"

end BusNode
