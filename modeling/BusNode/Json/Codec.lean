import BusNode.Json.Parser
import BusNode.SortedMap
/-!
# Values as JSON

A `Codec` writes and reads one type. A record is described once, by its `Fields`, and written and read from that:

* written, it is an object with all its fields in order;
* read, it is an object that has each required field once and no field twice, whatever else it holds, or an array of
  the fields in order, in which fields at the end may be left off if they have a default.

Numbers are read at the type that is asked for, so a number that nobody reads may be of any size.
-/

namespace BusNode

structure Codec (α : Type) where
  write : α → Json
  read : Json → Option α

namespace Codec

/-! ## Simple values -/

def bool : Codec Bool where
  write := .bool
  read
    | .bool b => some b
    | _ => none

def string : Codec String where
  write := .string
  read
    | .string s => some s
    | _ => none

/-- Natural numbers below `bound`, as which `α` is written. -/
def natural {α : Type} (bound : Nat) (toNat : α → Nat) (ofNat : Nat → α) : Codec α where
  write a := .number (decimal (toNat a))
  read
    | .number s => do
      let n ← (← Numeral.parse? s.toList).natural?
      if n < bound then some (ofNat n) else none
    | _ => none

/-- Integers from `-half` to `half - 1`, as which `α` is written. -/
def integer {α : Type} (half : Nat) (toInt : α → Int) (ofInt : Int → α) : Codec α where
  write a := .number (decimalInt (toInt a))
  read
    | .number s => do
      let i ← (← Numeral.parse? s.toList).integer?
      if -(half : Int) ≤ i ∧ i < half then some (ofInt i) else none
    | _ => none

def uint8 : Codec UInt8 := natural (2 ^ 8) UInt8.toNat UInt8.ofNat
def uint16 : Codec UInt16 := natural (2 ^ 16) UInt16.toNat UInt16.ofNat
def uint32 : Codec UInt32 := natural (2 ^ 32) UInt32.toNat UInt32.ofNat
def uint64 : Codec UInt64 := natural (2 ^ 64) UInt64.toNat UInt64.ofNat
def int8 : Codec Int8 := integer (2 ^ 7) Int8.toInt Int8.ofInt
def int16 : Codec Int16 := integer (2 ^ 15) Int16.toInt Int16.ofInt
def int32 : Codec Int32 := integer (2 ^ 31) Int32.toInt Int32.ofInt
def int64 : Codec Int64 := integer (2 ^ 63) Int64.toInt Int64.ofInt

/-- A number that is not finite is written as `null`, which no reader takes for a number. -/
def double : Codec Binary64 where
  write x := if x.isFinite then .number (doubleText x) else .null
  read
    | .number s => (Numeral.parse? s.toList).bind Numeral.double?
    | _ => none

def single : Codec Binary32 where
  write x := if x.isFinite then .number (singleText x) else .null
  read
    | .number s => (Numeral.parse? s.toList).bind Numeral.single?
    | _ => none

/-! ## Collections -/

/-- `null` for nothing. -/
def option {α : Type} (c : Codec α) : Codec (Option α) where
  write
    | none => .null
    | some a => c.write a
  read
    | .null => some none
    | j => (c.read j).map some

def list {α : Type} (c : Codec α) : Codec (List α) where
  write as := .array (as.map c.write)
  read
    | .array js => js.mapM c.read
    | _ => none

/-- A key is written in decimal, without leading zeros and without escapes. -/
def sortedMap {κ α : Type} [Ordinal κ] (bound : Nat) (ofNat : Nat → κ) (c : Codec α) : Codec (SortedMap κ α) where
  write m := .object (m.entries.map fun e => (.plain (decimal (Ordinal.toNat e.1)), c.write e.2))
  read
    | .object ms => do
      let es ← ms.mapM fun (k, j) => do
        match k with
        | .plain s =>
          let n ← (← Numeral.parse? s.toList).natural?
          if n < bound then return (ofNat n, ← c.read j) else none
        | _ => none
      return .ofList es
    | _ => none

/-! ## Variants -/

/-- The name of a variant, and what comes with it. -/
def variant? : Json → Option (String × Option Json)
  | .string s => some (s, none)
  | .object [(k, j)] => k.text?.map (·, some j)
  | _ => none

/-- The name of a variant without data; it may carry `null`. -/
def unit? (j : Json) : Option String :=
  match variant? j with
  | some (s, none) => some s
  | some (s, some .null) => some s
  | _ => none

/-- A variant with data, as an object with one member. -/
def tagged (name : String) (j : Json) : Json := .object [(.plain name, j)]

/-- Variants without data, each by its name. -/
def enumeration {α : Type} (all : List α) (name : α → String) : Codec α where
  write a := .string (name a)
  read j := do
    let s ← unit? j
    all.find? fun a => name a = s

end Codec

/-! ## Records -/

/-- What a field is if it is missing. -/
structure Absence (α : Type) where
  /-- In an object. -/
  inObject : Option α
  /-- At the end of an array. -/
  inArray : Option α

namespace Absence

def required {α : Type} : Absence α := ⟨none, none⟩
def default {α : Type} (a : α) : Absence α := ⟨some a, some a⟩

/-- A field that is nothing if an object lacks it; an array must have it. -/
def nothing {α : Type} : Absence (Option α) := ⟨some none, none⟩

end Absence

/-- The fields of a record in order, as a description of the product of their types. -/
inductive Fields : Type → Type 1 where
  | nil : Fields Unit
  | cons {α β : Type} (name : String) (codec : Codec α) (absence : Absence α) (rest : Fields β) : Fields (α × β)

namespace Fields

/-- The members of an object, all of them. -/
def write : {τ : Type} → Fields τ → τ → List (Key × Json)
  | _, .nil, _ => []
  | _, .cons name codec _ rest, (a, b) => (.plain name, codec.write a) :: rest.write b

/-- A field of an object. -/
def readField {α : Type} (name : String) (codec : Codec α) (absence : Absence α) (ms : List (Key × Json)) : Option α :=
  match ms.filter fun m => m.1.text? = some name with
  | [] => absence.inObject
  | [(_, j)] => codec.read j
  | _ => none

def readObject : {τ : Type} → Fields τ → List (Key × Json) → Option τ
  | _, .nil, _ => some ()
  | _, .cons name codec absence rest, ms => do
    let a ← readField name codec absence ms
    return (a, ← rest.readObject ms)

def readArray : {τ : Type} → Fields τ → List Json → Option τ
  | _, .nil, [] => some ()
  | _, .nil, _ :: _ => none
  | _, .cons _ _ absence rest, [] => do
    let a ← absence.inArray
    return (a, ← rest.readArray [])
  | _, .cons _ codec _ rest, j :: js => do
    let a ← codec.read j
    return (a, ← rest.readArray js)

end Fields

/-- A record that is the product of its fields. -/
def Codec.record {τ α : Type} (fields : Fields τ) (toFields : α → τ) (ofFields : τ → α) : Codec α where
  write a := .object (fields.write (toFields a))
  read
    | .object ms => if ms.all (·.1.text?.isSome) then (fields.readObject ms).map ofFields else none
    | .array js => (fields.readArray js).map ofFields
    | _ => none

end BusNode
