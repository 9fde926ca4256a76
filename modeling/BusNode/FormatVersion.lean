/-!
# Versions of the generated code

An application declares one format version; each part of the generated code has a version of its own that follows from
it, or no layout at all.
-/

namespace BusNode.FormatVersion

def latest : Nat := 6

def isKnown (v : Nat) : Bool := 1 ≤ v && v ≤ latest

/-- Datapools: 3 declares memory regions by lines around the data, 4 has the linkage of a Datapool, 5 the scratch buffer
of non-volatile lists and the scaling definitions. -/
def datapool? (v : Nat) : Option Nat :=
  if 1 ≤ v ∧ v ≤ 5 then some v else if v = 6 then some 5 else none

/-- Communication: 2 has multiplexed messages, 3 places their status in a memory region. -/
def comm? (v : Nat) : Option Nat :=
  if 1 ≤ v ∧ v ≤ 3 then some v else if 4 ≤ v ∧ v ≤ 6 then some 3 else none

/-- CANopen: 2 has the factory reset of a device and the SYNC times of the manager. -/
def canOpen? (v : Nat) : Option Nat :=
  if 1 ≤ v ∧ v ≤ 5 then some 1 else if v = 6 then some 2 else none

/-- Hardware channels: one layout so far. -/
def halc? (v : Nat) : Option Nat := if v ≤ 6 then some 1 else none

/-- The start table follows the Datapools. -/
def start? (v : Nat) : Option Nat := datapool? v

end BusNode.FormatVersion
