import BusNode.Can.Basic
import BusNode.Datapool.Basic
import BusNode.Halc.Basic
/-!
# Nodes

A node with its applications (Data Blocks), Datapools, CAN protocols and hardware channels.
-/

namespace BusNode

/-- What an application is built from. -/
inductive ApplicationKind where
  /-- Compiled together with generated code. -/
  | programmable
  /-- A set of HALC parameters. -/
  | parameterSetHalc
  /-- Delivered as it is. -/
  | binary
  deriving DecidableEq, Repr

/-- A Data Block of a node. -/
structure Application where
  name : String
  comment : String
  kind : ApplicationKind
  /-- The version of the generated code that the application expects. -/
  formatVersion : UInt16
  /-- The number by which the diagnostic protocol addresses the application. -/
  processId : UInt8
  active : Bool
  deriving DecidableEq, Repr

inductive BusKind where
  | can
  | ethernet
  deriving DecidableEq, Repr

/-- A bus connection of a node. -/
structure BusInterface where
  kind : BusKind
  /-- Counted from 0. -/
  number : UInt8
  nodeId : UInt8
  diagnosisServer : Bool
  routing : Bool
  bitrate : UInt32
  deriving DecidableEq, Repr

/-- The diagnostic protocol driver. -/
structure ServerSettings where
  /-- The application that hosts the driver. -/
  host : Option UInt64
  maxClients : UInt8
  maxParallelTransmissions : UInt8
  maxTxBufferSize : UInt16
  maxRoutingBufferSize : UInt16
  deriving DecidableEq, Repr

def ServerSettings.standard : ServerSettings := ⟨none, 1, 64, 585, 585⟩

structure Node where
  name : String
  applications : List Application
  datapools : List Datapool
  protocols : List Can.Protocol
  /-- The CANopen managers by the interface that they run on. -/
  managers : SortedMap UInt8 CanOpen.Manager
  halc : Option Halc.Config
  interfaces : List BusInterface
  server : ServerSettings
  deriving DecidableEq

/-- Why a node cannot be read or asked. -/
inductive ModelError where
  /-- The text is no snapshot of a node. -/
  | json
  | outOfRange (collection : String) (index length : Nat)
  deriving DecidableEq, Repr

namespace Node

def empty : Node := ⟨"", [], [], [], .empty, none, [], .standard⟩

def application (n : Node) (index : Nat) : Except ModelError Application :=
  match n.applications[index]? with
  | some a => .ok a
  | none => .error (.outOfRange "data blocks" index n.applications.length)

def datapool (n : Node) (index : Nat) : Except ModelError Datapool :=
  match n.datapools[index]? with
  | some d => .ok d
  | none => .error (.outOfRange "datapools" index n.datapools.length)

/-- Whether the application hosts the diagnostic driver. -/
def isHost (n : Node) (index : Nat) : Bool := n.server.host.map UInt64.toNat == some index

/-- The indices of the Datapools of an application. -/
def ownedBy (n : Node) (index : Nat) : List Nat :=
  (n.datapools.zipIdx.filter fun (d, _) => d.owner.map UInt64.toNat == some index).map (·.2)

/-- The first protocol whose signals are in a Datapool. -/
def protocolOf? (n : Node) (datapool : Nat) : Option Can.Protocol :=
  n.protocols.find? (·.datapoolIndex.toNat = datapool)

/-- The first CAN interface of a number. -/
def canInterface? (n : Node) (number : UInt8) : Option BusInterface :=
  n.interfaces.find? fun i => i.kind = .can ∧ i.number = number

end Node

end BusNode
