import BusNode.Can.Basic
/-!
# Signal descriptors

A signal in the run-time library's table is one 32-bit word:

| bits  | content          |
|-------|------------------|
| 0-8   | start bit        |
| 9-14  | length minus one |
| 15    | Motorola order   |
| 16-31 | element index    |
-/

namespace BusNode.Can

/-- A signal that does not fit a descriptor. -/
inductive DescriptorError where
  | startBit (bit : UInt16)
  | length (bits : UInt16)
  | elementIndex (index : UInt32)
  deriving DecidableEq, Repr

namespace Descriptor

/-- The highest start bit, of a payload of 64 bytes. -/
def maxStartBit : Nat := 511

def maxLength : Nat := 64

end Descriptor

def DescriptorError.message : DescriptorError → String
  | .startBit bit => s!"start bit {decimal bit.toNat} exceeds {decimal Descriptor.maxStartBit}"
  | .length bits => s!"bit length {decimal bits.toNat} outside 1..={decimal Descriptor.maxLength}"
  | .elementIndex index => s!"element index {decimal index.toNat} does not fit 16 bits"

/-- The contents of a descriptor. -/
structure Descriptor where
  startBit : UInt16
  bitLength : UInt16
  isMotorola : Bool
  elementIndex : UInt16
  deriving DecidableEq, Repr

namespace Descriptor

def ofSignal (s : Signal) : Except DescriptorError Descriptor :=
  if maxStartBit < s.bitStart.toNat then .error (.startBit s.bitStart)
  else if s.bitLength = 0 ∨ maxLength < s.bitLength.toNat then .error (.length s.bitLength)
  else if 2 ^ 16 ≤ s.elementIndex.toNat then .error (.elementIndex s.elementIndex)
  else .ok ⟨s.bitStart, s.bitLength, s.byteOrder = .motorola, s.elementIndex.toUInt16⟩

def word (d : Descriptor) : UInt32 :=
  UInt32.ofNat (d.startBit.toNat % 2 ^ 9 + (d.bitLength.toNat - 1) % 2 ^ 6 * 2 ^ 9 +
    d.isMotorola.toNat * 2 ^ 15 + d.elementIndex.toNat * 2 ^ 16)

/-- The contents of a word. -/
def ofWord (w : UInt32) : Descriptor :=
  ⟨UInt16.ofNat (w.toNat % 2 ^ 9), UInt16.ofNat (w.toNat / 2 ^ 9 % 2 ^ 6 + 1), w.toNat / 2 ^ 15 % 2 = 1,
    UInt16.ofNat (w.toNat / 2 ^ 16)⟩

end Descriptor

end BusNode.Can
