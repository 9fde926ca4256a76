import BusNode.Datapool.Basic
/-!
# Datapools in a snapshot
-/

namespace BusNode

namespace ElementAccess

def name : ElementAccess → String
  | .readOnly => "ReadOnly"
  | .readWrite => "ReadWrite"

def codec : Codec ElementAccess := .enumeration [.readOnly, .readWrite] name

end ElementAccess

namespace Element

def codec : Codec Element := .record
  (.cons "name" .string .required <|
   .cons "comment" .string (.default "") <|
   .cons "value_type" ScalarType.codec .required <|
   .cons "array_size" (.option .uint32) (.default none) <|
   .cons "default" Content.codec .required <|
   .cons "min" Content.codec .required <|
   .cons "max" Content.codec .required <|
   .cons "dataset_values" (.list Content.codec) (.default []) <|
   .cons "factor" .double (.default .one) <|
   .cons "offset" .double (.default .zero) <|
   .cons "unit" .string (.default "") <|
   .cons "access" ElementAccess.codec (.default .readWrite) <|
   .cons "diag_event_call" .bool (.default false) <|
   .cons "nvm_start_address" .uint32 (.default 0) .nil)
  (fun e => (e.name, e.comment, e.type, e.arraySize, e.default, e.min, e.max, e.dataSetValues, e.factor, e.offset,
    e.unit, e.access, e.reportsChanges, e.nvmStartAddress, ()))
  (fun (name, comment, type, arraySize, default, min, max, dataSetValues, factor, offset, unit, access,
      reportsChanges, nvmStartAddress, ()) =>
    ⟨name, comment, type, arraySize, default, min, max, dataSetValues, factor, offset, unit, access, reportsChanges,
      nvmStartAddress⟩)

end Element

namespace DataSet

def codec : Codec DataSet := .record
  (.cons "name" .string .required <| .cons "comment" .string (.default "") .nil)
  (fun d => (d.name, d.comment, ()))
  (fun (name, comment, ()) => ⟨name, comment⟩)

end DataSet

namespace ElementList

def codec : Codec ElementList := .record
  (.cons "name" .string .required <|
   .cons "comment" .string (.default "") <|
   .cons "nvm_start_address" .uint32 (.default 0) <|
   .cons "nvm_size" .uint32 (.default 0) <|
   .cons "nvm_crc_active" .bool (.default false) <|
   .cons "elements" (.list Element.codec) .required <|
   .cons "datasets" (.list DataSet.codec) (.default []) .nil)
  (fun l => (l.name, l.comment, l.nvmStartAddress, l.nvmSize, l.nvmCrc, l.elements, l.dataSets, ()))
  (fun (name, comment, start, size, crc, elements, dataSets, ()) =>
    ⟨name, comment, start, size, crc, elements, dataSets⟩)

end ElementList

namespace DatapoolKind

def name : DatapoolKind → String
  | .generic => "Generic"
  | .nvm => "Nvm"
  | .com => "Com"
  | .halc => "Halc"
  | .halcNvm => "HalcNvm"

def codec : Codec DatapoolKind := .enumeration [.generic, .nvm, .com, .halc, .halcNvm] name

end DatapoolKind

namespace Datapool

/-- Three numbers in an array. -/
def versionCodec : Codec (UInt8 × UInt8 × UInt8) where
  write v := .array [Codec.uint8.write v.1, Codec.uint8.write v.2.1, Codec.uint8.write v.2.2]
  read
    | .array [a, b, c] => do return (← Codec.uint8.read a, ← Codec.uint8.read b, ← Codec.uint8.read c)
    | _ => none

def codec : Codec Datapool := .record
  (.cons "name" .string .required <|
   .cons "comment" .string (.default "") <|
   .cons "kind" DatapoolKind.codec .required <|
   .cons "is_safety" .bool (.default false) <|
   .cons "version" versionCodec (.default (0, 0, 0)) <|
   .cons "owner" (.option .uint64) .nothing <|
   .cons "scope_is_private" .bool (.default true) <|
   .cons "nvm_start_address" .uint32 (.default 0) <|
   .cons "nvm_size" .uint32 (.default 0) <|
   .cons "lists" (.list ElementList.codec) .required .nil)
  (fun d => (d.name, d.comment, d.kind, d.isSafety, d.version, d.owner, d.isPrivate, d.nvmStartAddress, d.nvmSize,
    d.lists, ()))
  (fun (name, comment, kind, isSafety, version, owner, isPrivate, start, size, lists, ()) =>
    ⟨name, comment, kind, isSafety, version, owner, isPrivate, start, size, lists⟩)

end Datapool

end BusNode
