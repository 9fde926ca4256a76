import BusNode.Json.Codec
/-!
# Typed numbers

The ten numeric types of a Datapool element and their values.
-/

namespace BusNode

inductive ScalarType where
  | u8 | s8 | u16 | s16 | u32 | s32 | u64 | s64 | f32 | f64
  deriving DecidableEq, Repr

namespace ScalarType

def all : List ScalarType := [.u8, .s8, .u16, .s16, .u32, .s32, .u64, .s64, .f32, .f64]

/-- Bytes of one value. -/
def size : ScalarType → UInt32
  | .u8 | .s8 => 1
  | .u16 | .s16 => 2
  | .u32 | .s32 | .f32 => 4
  | .u64 | .s64 | .f64 => 8

/-- The name in a snapshot. -/
def name : ScalarType → String
  | .u8 => "U8"
  | .s8 => "S8"
  | .u16 => "U16"
  | .s16 => "S16"
  | .u32 => "U32"
  | .s32 => "S32"
  | .u64 => "U64"
  | .s64 => "S64"
  | .f32 => "F32"
  | .f64 => "F64"

def codec : Codec ScalarType := .enumeration all name

end ScalarType

inductive Scalar where
  | u8 (v : UInt8)
  | s8 (v : Int8)
  | u16 (v : UInt16)
  | s16 (v : Int16)
  | u32 (v : UInt32)
  | s32 (v : Int32)
  | u64 (v : UInt64)
  | s64 (v : Int64)
  | f32 (v : Binary32)
  | f64 (v : Binary64)
  deriving DecidableEq

namespace Scalar

def type : Scalar → ScalarType
  | .u8 _ => .u8
  | .s8 _ => .s8
  | .u16 _ => .u16
  | .s16 _ => .s16
  | .u32 _ => .u32
  | .s32 _ => .s32
  | .u64 _ => .u64
  | .s64 _ => .s64
  | .f32 _ => .f32
  | .f64 _ => .f64

def write : Scalar → Json
  | .u8 v => Codec.tagged "U8" (Codec.uint8.write v)
  | .s8 v => Codec.tagged "S8" (Codec.int8.write v)
  | .u16 v => Codec.tagged "U16" (Codec.uint16.write v)
  | .s16 v => Codec.tagged "S16" (Codec.int16.write v)
  | .u32 v => Codec.tagged "U32" (Codec.uint32.write v)
  | .s32 v => Codec.tagged "S32" (Codec.int32.write v)
  | .u64 v => Codec.tagged "U64" (Codec.uint64.write v)
  | .s64 v => Codec.tagged "S64" (Codec.int64.write v)
  | .f32 v => Codec.tagged "F32" (Codec.single.write v)
  | .f64 v => Codec.tagged "F64" (Codec.double.write v)

/-- Reads a value of a type. -/
def readAs : ScalarType → Json → Option Scalar
  | .u8, j => (Codec.uint8.read j).map .u8
  | .s8, j => (Codec.int8.read j).map .s8
  | .u16, j => (Codec.uint16.read j).map .u16
  | .s16, j => (Codec.int16.read j).map .s16
  | .u32, j => (Codec.uint32.read j).map .u32
  | .s32, j => (Codec.int32.read j).map .s32
  | .u64, j => (Codec.uint64.read j).map .u64
  | .s64, j => (Codec.int64.read j).map .s64
  | .f32, j => (Codec.single.read j).map .f32
  | .f64, j => (Codec.double.read j).map .f64

def read (j : Json) : Option Scalar :=
  match Codec.variant? j with
  | some (s, some payload) => (ScalarType.all.find? (·.name = s)).bind (readAs · payload)
  | _ => none

def codec : Codec Scalar := ⟨write, read⟩

end Scalar

/-- What an element holds: one value, or one for each place of an array. -/
abbrev Content := List Scalar

def Content.codec : Codec Content := .list Scalar.codec

end BusNode
