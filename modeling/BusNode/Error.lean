import BusNode.Can.Descriptor
import BusNode.Can.Snapshot
import BusNode.Code.Literal
import BusNode.Code.Name
import BusNode.Disk.Basic
import BusNode.Halc.Snapshot
import BusNode.Node.Snapshot
/-!
# Why an export fails

Each cause is a case of its own; the wording stands in the `message` functions.

* `ExportError` — the errors that an export returns;
* `Stop` — an error, or a number that does not fit, which ends the run without one.
-/

namespace BusNode

/-! ## Causes -/

/-- A request that cannot be served for the configuration or its format version. -/
inductive Unsupported where
  | publicScope (datapool : String)
  /-- CANopen is asked of the communication stack. -/
  | canOpenProtocol
  | multiplexed (message : String)
  | noLayout (version : UInt16) (application domain : String)
  | unknownVersion (version : UInt16) (application : String)
  | binary (application : String)
  deriving DecidableEq, Repr

namespace Unsupported

def message : Unsupported → String
  | .publicScope datapool => s!"public scope of Datapool '{datapool}' needs Datapool subversion 4 or newer"
  | .canOpenProtocol => "CANopen is configured through the CANopen manager"
  | .multiplexed message => s!"multiplexed message '{message}' needs communication subversion 2 or newer"
  | .noLayout version application domain =>
    s!"code format version {decimal version.toNat} of Data Block '{application}' has no {domain} layout"
  | .unknownVersion version application =>
    s!"unknown code format version {decimal version.toNat} of Data Block '{application}'"
  | .binary application => s!"Data Block '{application}' is a binary, no code can be generated"

end Unsupported

/-- What is wrong with the content of an element. -/
inductive ElementFault where
  | factor (value : Binary64)
  | dataSets (values sets : Nat)
  | length (expected actual : Nat)
  | type (expected found : ScalarType)
  deriving DecidableEq

namespace ElementFault

/-- The text for the element of a full name. -/
def message (element : String) : ElementFault → String
  | .factor value => s!"element '{element}' has an invalid scaling factor {value.plainText}"
  | .dataSets values sets =>
    s!"element '{element}' has {decimal values} dataset values for {decimal sets} datasets"
  | .length expected actual => s!"element '{element}' expects {decimal expected} values, content has {decimal actual}"
  | .type expected found => s!"element '{element}' is {expected.name} but holds a {found.name} value"

end ElementFault

/-- What is wrong with a PDO. -/
inductive PdoFault where
  | noOwner
  | unknownDevice (id : CanOpen.DeviceId)
  | number (n : UInt16)
  | syncCount (n : UInt8)
  | transmissionType
  | inhibitTime
  | eventTime
  deriving DecidableEq, Repr

namespace PdoFault

def message (pdo : String) : PdoFault → String
  | .noOwner => s!"PDO '{pdo}' has no owning device"
  | .unknownDevice id =>
    s!"PDO '{pdo}' belongs to device CanOpenDeviceId \x7b node_index: {decimal id.nodeIndex.toNat}, " ++
      s!"interface_number: {decimal id.interfaceNumber.toNat} \x7d which is not configured"
  | .number n => s!"PDO '{pdo}' has number {decimal n.toNat}, the maximum is 511"
  | .syncCount n => s!"PDO '{pdo}' has SYNC count {decimal n.toNat} outside 1..=240"
  | .transmissionType => s!"PDO '{pdo}' has no CANopen transmission type"
  | .inhibitTime => s!"inhibit time of PDO '{pdo}' exceeds 6553 ms"
  | .eventTime => s!"event time of PDO '{pdo}' exceeds 65535 ms"

end PdoFault

/-- What is wrong with the values of a channel. -/
inductive ChannelFault where
  | count (values parameters : Nat)
  | type (parameter : String) (expected found : ScalarType)
  deriving DecidableEq, Repr

namespace ChannelFault

def message (owner domain : String) : ChannelFault → String
  | .count values parameters =>
    s!"{owner} of domain '{domain}' has {decimal values} values for {decimal parameters} parameters"
  | .type parameter expected found =>
    s!"{owner} of domain '{domain}': parameter '{parameter}' expects {expected.name}, found {found.name}"

end ChannelFault

/-- Parts of a configuration that do not fit together. -/
inductive Structural where
  | emptyDatapool (datapool : String)
  | tooManyDataSets (list datapool : String) (count : Nat)
  | element (name : String) (fault : ElementFault)
  | noSignals (stem : String)
  | missingList (datapool direction : String) (interface : UInt8)
  | trigger (message : String)
  | missingElement (message : String) (index : UInt32) (list : String)
  | signal (name message : String) (fault : Can.DescriptorError)
  | pdo (name : String) (fault : PdoFault)
  | missingPdoElement (name : String) (index : UInt32) (list : String)
  | pdoSignal (fault : Can.DescriptorError)
  | noManager
  | channel (owner domain : String) (fault : ChannelFault)
  | noInterface (protocol : Can.ProtocolKind) (interface : UInt8)
  | emptyBacking (protocol : Can.ProtocolKind) (interface : UInt8) (datapool : String)
  | notCom (protocol : Can.ProtocolKind) (datapool : String)
  | missingManager (interface : UInt8)
  | hiddenFromOwner (datapool application : String)
  | secondHalc (application : String) (variant : Halc.Variant)
  | noHalcConfig (datapool : String)
  deriving DecidableEq

namespace Structural

def message : Structural → String
  | .emptyDatapool datapool => s!"Datapool '{datapool}' has no elements"
  | .tooManyDataSets list datapool count =>
    s!"list '{list}' of Datapool '{datapool}' has {decimal count} datasets, at most 255 are supported"
  | .element name fault => fault.message name
  | .noSignals stem => s!"no message of {stem} carries a signal"
  | .missingList datapool direction interface =>
    s!"Datapool '{datapool}' has no {direction} list for {busName interface}"
  | .trigger message => s!"message '{message}' uses a CANopen transmission type on a non-CANopen protocol"
  | .missingElement message index list =>
    s!"signal of message '{message}' refers to missing element {decimal index.toNat} of list '{list}'"
  | .signal name message fault => s!"signal '{name}' of message '{message}': {fault.message}"
  | .pdo name fault => fault.message name
  | .missingPdoElement name index list =>
    s!"signal of PDO '{name}' refers to missing element {decimal index.toNat} of list '{list}'"
  | .pdoSignal fault => s!"signal cannot be encoded: {fault.message}"
  | .noManager => "no CANopen manager to aggregate"
  | .channel owner domain fault => fault.message owner domain
  | .noInterface protocol interface =>
    s!"{protocol.name} messages on {busName interface} but the node has no such CAN interface"
  | .emptyBacking protocol interface datapool =>
    s!"{protocol.name} messages on {busName interface} are backed by Datapool '{datapool}' which has no elements"
  | .notCom protocol datapool =>
    s!"{protocol.name} protocol is backed by Datapool '{datapool}' which is not a COM Datapool"
  | .missingManager interface => s!"CANopen messages on {busName interface} have no manager"
  | .hiddenFromOwner datapool application => s!"Datapool '{datapool}' is not visible to its owner '{application}'"
  | .secondHalc application variant =>
    s!"Data Block '{application}' owns more than one {variant.name} HALC Datapool"
  | .noHalcConfig datapool => s!"HALC Datapool '{datapool}' exists but the node has no HALC configuration"

end Structural

/-! ## Errors -/

/-- What a caller that wants no detail is told. -/
inductive ErrorKind where
  | range
  | unsupported
  | structural
  | io
  deriving DecidableEq, Repr

inductive ExportError where
  /-- An index beyond the end of a collection. -/
  | range (what : String) (index length : Nat)
  | unsupported (cause : Unsupported)
  | structural (cause : Structural)
  | literal (cause : LiteralError)
  /-- A text that is not the JSON that was asked for. -/
  | json
  | io (path : String) (cause : DiskError)
  deriving DecidableEq

namespace ExportError

def kind : ExportError → ErrorKind
  | .range .. => .range
  | .unsupported _ | .json => .unsupported
  | .structural _ | .literal _ => .structural
  | .io .. => .io

/-- The text of an error; `reason` is what the JSON reader or the file system has to say. -/
def message (reason : String) : ExportError → String
  | .range what index length => s!"Index {decimal index} out of range for {what} (length {decimal length})"
  | .unsupported cause => s!"Unsupported configuration: {cause.message}"
  | .structural cause => s!"Inconsistent configuration: {cause.message}"
  | .literal cause => s!"Literal error: {cause.message}"
  | .json => s!"Serialization error: {reason}"
  | .io path _ => s!"Could not write '{path}': {reason}"

/-- What the file system has to say. -/
def reason : ExportError → String
  | .io _ cause => cause.message
  | _ => ""

/-- Whether another error is the cause. -/
def hasSource : ExportError → Bool
  | .literal _ | .json | .io .. => true
  | .range .. | .unsupported _ | .structural _ => false

def ofModel : ModelError → ExportError
  | .json => .json
  | .outOfRange collection index length => .range collection index length

end ExportError

/-! ## Stops -/

/-- Why a computation comes to no value. -/
inductive Stop where
  | refused (cause : ExportError)
  /-- A number does not fit the word that is to hold it. The run ends there, and nobody is told an error. -/
  | overflow
  deriving DecidableEq

namespace Stop

/-- A number without literal. -/
def literal (cause : LiteralError) : Stop := .refused (.literal cause)

/-- A number that has to fit. -/
def unlessFits {α : Type} : Option α → Except Stop α
  | some a => .ok a
  | none => .error .overflow

end Stop

end BusNode
