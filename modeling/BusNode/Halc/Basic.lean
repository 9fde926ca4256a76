import BusNode.Scalar
/-!
# Hardware channels

The hardware abstraction configuration (HALC): domains of channels of one kind, each with values for the parameters
of its domain. It is generated in up to two variants, one for the safe and one for the non-safe part of the node.
-/

namespace BusNode.Halc

inductive SafetyMode where
  /-- Each variant has its own channels only. -/
  | twoLevelsWithDropping
  /-- Both variants have every channel. -/
  | twoLevelsWithoutDropping
  | oneLevelAllSafe
  | oneLevelAllNonSafe
  deriving DecidableEq, Repr

inductive Variant where
  | safe
  | nonSafe
  deriving DecidableEq, Repr

namespace Variant

def ofSafety (isSafety : Bool) : Variant := if isSafety then .safe else .nonSafe
def isSafe : Variant → Bool
  | .safe => true
  | .nonSafe => false

end Variant

structure Parameter where
  name : String
  type : ScalarType
  deriving DecidableEq, Repr

structure Channel where
  name : String
  comment : String
  isSafety : Bool
  useCase : UInt32
  /-- A value for each parameter of the domain. -/
  values : List Scalar
  deriving DecidableEq

/-- Channels of one kind. -/
structure Domain where
  name : String
  parameters : List Parameter
  /-- The values for a domain without channels. -/
  domainValues : List Scalar
  channels : List Channel
  deriving DecidableEq

structure Config where
  safetyMode : SafetyMode
  domains : List Domain
  deriving DecidableEq

/-- Whether a variant has a channel. -/
def SafetyMode.shows (mode : SafetyMode) (isSafety : Bool) (v : Variant) : Bool :=
  match mode with
  | .twoLevelsWithDropping => isSafety == v.isSafe
  | .twoLevelsWithoutDropping | .oneLevelAllSafe | .oneLevelAllNonSafe => true

end BusNode.Halc
