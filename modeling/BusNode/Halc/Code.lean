import BusNode.Code.File
import BusNode.Datapool.Code
/-!
# Code of hardware channels

The pair of one variant: a record type for each domain, the records of the channels that the variant has, and the
table of domains. A domain without any channel may have a record of its own values instead.

* `HalcCode.domainCode` — the records of a domain and its row, or the first fault;
* `HalcCode.generate` — the pair, or the first fault.
-/

namespace BusNode

open Halc

namespace Halc

/-- The stem of the files of a variant. -/
def Variant.stem : Variant → String
  | .safe => "halc_config_safe"
  | .nonSafe => "halc_config_nonsafe"

/-- The record of a variant. -/
def Variant.recordName (v : Variant) : String := s!"gt_{v.stem}_Configuration"

def Variant.tag : Variant → String
  | .safe => "OSY_HAL_VARIANT_SAFE"
  | .nonSafe => "OSY_HAL_VARIANT_NON_SAFE"

def SafetyMode.tag : SafetyMode → String
  | .twoLevelsWithDropping => "OSY_HAL_SAFETY_MODE_TWO_LEVELS_WITH_DROPPING"
  | .twoLevelsWithoutDropping => "OSY_HAL_SAFETY_MODE_TWO_LEVELS_WITHOUT_DROPPING"
  | .oneLevelAllSafe => "OSY_HAL_SAFETY_MODE_ONE_LEVEL_ALL_SAFE"
  | .oneLevelAllNonSafe => "OSY_HAL_SAFETY_MODE_ONE_LEVEL_ALL_NON_SAFE"

namespace Domain

/-- Whether the domain has a row in the table. -/
def isEmitted (mode : SafetyMode) (d : Domain) : Bool :=
  !d.channels.isEmpty || !d.parameters.isEmpty || mode = .twoLevelsWithoutDropping

/-- The channels that a variant has. -/
def visible (mode : SafetyMode) (v : Variant) (d : Domain) : List Channel :=
  d.channels.filter fun c => mode.shows c.isSafety v

end Domain

/-- The declaration of a parameter in the record of a channel. -/
def Parameter.declaration (p : Parameter) : String := s!"{p.type.cType} {p.type.marker false}_{p.name};"

end Halc

/-- The hardware channels of one variant. -/
structure HalcCode where
  /-- The name of the application. -/
  application : String
  config : Config
  variant : Variant
  /-- The Datapool that holds the values of the variant. -/
  datapool : Datapool
  /-- The version of the layout. -/
  version : Nat

/-- A row of the table of domains. -/
structure DomainRow where
  name : String
  channelCount : Nat
  channels : Pointer
  deriving DecidableEq, Repr

def DomainRow.row (d : DomainRow) : Row :=
  .commented (.list [.constant (Literal.count d.channelCount), .pointer d.channels]) d.name

namespace HalcCode

def mode (x : HalcCode) : SafetyMode := x.config.safetyMode

/-- The domains that have a row. -/
def domains (x : HalcCode) : List Domain := x.config.domains.filter (·.isEmitted x.mode)

/-- The channels of a domain that the variant has. -/
def channels (x : HalcCode) (d : Domain) : List Channel := d.visible x.mode x.variant

/-! ## Names -/

def stem (x : HalcCode) : String := x.variant.stem
def channelType (x : HalcCode) (d : Domain) : String := s!"T_{x.stem}_{d.name}_Channel"
def singleName (x : HalcCode) (d : Domain) : String := s!"mt_{x.stem}_{d.name}_Channel"
def arrayName (x : HalcCode) (d : Domain) : String := s!"mat_{x.stem}_{d.name}_Channels"
def valuesName (x : HalcCode) (d : Domain) : String := s!"mt_{x.stem}_{d.name}_DomainValues"
def domainsName (x : HalcCode) : String := s!"mat_{x.stem}_Domains"

/-! ## Header -/

def header (x : HalcCode) (id : Identifier) : File :=
  let brief := match x.variant with
    | .safe => "Safe hardware channel configuration"
    | .nonSafe => "Non-safe hardware channel configuration"
  let name := upper x.stem
  ⟨File.headerStart x.stem brief ["osy_hal_configuration.h", x.datapool.headerName] id ++
    [Item.blank, .define s!"{name}_NUMBER_OF_DOMAINS" "" (.number x.domains.length)] ++
    (x.domains.map fun d =>
      Item.define s!"{name}_{upper d.name}_NUMBER_OF_CHANNELS" "" (.number (x.channels d).length)) ++
    [Item.heading "Types"] ++
    (x.domains.flatMap fun d =>
      [Item.blank, .recordType (x.channelType d) ("uint32 u32_UseCase;" :: d.parameters.map Parameter.declaration)]) ++
    [Item.heading "Global Constants",
      .declare (.externRecord "T_osy_hal_configuration" x.variant.recordName) none] ++
    File.headerEnd⟩

/-! ## Records -/

/-- The value of a parameter, which must have its type. -/
def field (d : Domain) (owner : String) (p : Parameter) (v : Scalar) : Except ExportError Expr :=
  if v.type ≠ p.type then .error (.structural (.channel owner d.name (.type p.name p.type v.type)))
  else match Literal.scalar v with
    | .ok s => .ok (.constant s)
    | .error e => .error (.literal e)

/-- The use case and a value for each parameter. -/
def record (d : Domain) (useCase : UInt32) (values : List Scalar) (owner : String) : Except ExportError Expr :=
  if values.length ≠ d.parameters.length then
    .error (.structural (.channel owner d.name (.count values.length d.parameters.length)))
  else do
    let fields ← (d.parameters.zip values).mapM fun (p, v) => field d owner p v
    return .list (.constant (Literal.long useCase.toNat) :: fields)

def channelRecord (d : Domain) (c : Channel) : Except ExportError Expr := record d c.useCase c.values c.name

/-- The records of a domain: one object for one channel, an array for more, the domain's own values for a domain that
has parameters and no channel at all. -/
def domainRecords (x : HalcCode) (d : Domain) : Except ExportError (List Item × Pointer) := do
  match x.channels d with
  | [] =>
    if d.channels.isEmpty && !d.parameters.isEmpty then
      let values ← record d 0 d.domainValues "domain values"
      return ([Item.blank, .inlineObject (.record (x.channelType d) (x.valuesName d)) values none],
        some (.whole (x.valuesName d)))
    else return ([], none)
  | [c] =>
    let values ← channelRecord d c
    return ([Item.blank, .inlineObject (.record (x.channelType d) (x.singleName d)) values (some c.name)],
      Pointer.select 1 (x.singleName d) (x.arrayName d))
  | cs =>
    let rows ← cs.mapM fun c => return Row.commented (← channelRecord d c) c.name
    return ([Item.blank, .object (.table (x.channelType d) (x.arrayName d) rows.length) rows none],
      Pointer.select rows.length (x.singleName d) (x.arrayName d))

/-- The records of a domain and its row. -/
def domainCode (x : HalcCode) (d : Domain) : Except ExportError (List Item × DomainRow) := do
  let (items, channels) ← x.domainRecords d
  return (items, ⟨d.name, (x.channels d).length, channels⟩)

/-! ## Source -/

def source (x : HalcCode) (id : Identifier) : Except ExportError File := do
  let code ← x.domains.mapM x.domainCode
  let rows := code.map (·.2)
  return ⟨File.sourceStart x.stem "Hardware channel configuration" [] id ++
    [Item.heading "Module Global Constants"] ++
    code.flatMap (·.1) ++
    (if rows.isEmpty then []
      else [Item.blank, .object (.table "T_osy_hal_domain_configuration" x.domainsName rows.length)
        (rows.map DomainRow.row) none]) ++
    [Item.heading "Global Constants",
      .object (.sharedRecord "T_osy_hal_configuration" x.variant.recordName) [
        .constant x.variant.tag,
        .constant x.mode.tag,
        .pointer (some (.whole x.datapool.recordName)),
        .noted (Literal.count rows.length) "number of domains",
        .pointer (.slice x.domainsName 0 rows.length)] none]⟩

/-! ## Pair -/

/-- What the pair is identified by. -/
def content (x : HalcCode) : Json :=
  .array [Halc.Config.codec.write x.config, Halc.Variant.codec.write x.variant, .string x.datapool.name,
    .number (decimal x.version)]

def generate (x : HalcCode) (id : Identifier) : Report ExportError Pair := do
  let subject := Event.artifact x.application x.stem
  let source ← Report.onError (.ofExcept (x.source id)) (.failure subject)
  .tell (.debug subject s!"Generated {decimal x.domains.length} domains, subversion {decimal x.version}")
  return ⟨x.stem, x.header id, source⟩

end HalcCode

end BusNode
