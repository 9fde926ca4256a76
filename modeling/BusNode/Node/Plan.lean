import BusNode.Can.Rename
import BusNode.FormatVersion
import BusNode.Start.Code
/-!
# Plans

A plan is everything that is generated for one application, in order. Nothing is written before the whole plan is
there, so a fault in any part leaves no file behind.

* `Node.visibleDatapools` — the Datapools that an application sees, and how;
* `Node.interfacesOf` — the protocols and interfaces that get code of their own;
* `Node.plan` — the artifacts of an application, or what stops the planning.
-/

namespace BusNode

open Can CanOpen

/-- What is asked of an export. -/
structure ExportOptions where
  outputDir : String
  /-- Whether Datapools get scaling definitions where their layout has them. -/
  wantsScaling : Bool
  deriving DecidableEq, Repr

namespace ExportOptions

def new (outputDir : String) : ExportOptions := ⟨outputDir, true⟩

def codec : Codec ExportOptions := .record
  (.cons "output_dir" .string (.default "generated") <| .cons "scaling_support" .bool (.default true) .nil)
  (fun o => (o.outputDir, o.wantsScaling, ()))
  (fun (outputDir, wantsScaling, ()) => ⟨outputDir, wantsScaling⟩)

def read (text : String) : Except ExportError ExportOptions :=
  match (Json.parse? text).bind codec.read with
  | some o => .ok o
  | none => .error .json

end ExportOptions

/-! ## Artifacts -/

/-- What a pair was generated from. -/
inductive Source where
  | start (x : StartCode)
  | datapool (x : DatapoolCode)
  | comm (x : CommCode)
  | manager (x : ManagerCode)
  | aggregate (x : AggregateCode)
  | halc (x : HalcCode)

/-- A pair and what it was generated from, which also identifies it. -/
structure Artifact where
  source : Source
  pair : Pair

namespace Artifact

def start (x : StartCode) : Report Stop Artifact := return ⟨.start x, ← (x.generate (.ofContent x.content)).lift⟩
def datapool (x : DatapoolCode) : Report Stop Artifact := return ⟨.datapool x, ← x.generate (.ofContent x.content)⟩
def comm (x : CommCode) : Report Stop Artifact := return ⟨.comm x, ← (x.generate (.ofContent x.content)).lift⟩
def manager (x : ManagerCode) : Report Stop Artifact := return ⟨.manager x, ← (x.generate (.ofContent x.content)).lift⟩
def aggregate (x : AggregateCode) : Report Stop Artifact := return ⟨.aggregate x, ← x.generate (.ofContent x.content)⟩
def halc (x : HalcCode) : Report Stop Artifact := return ⟨.halc x, ← (x.generate (.ofContent x.content)).lift⟩

end Artifact

/-! ## Visibility -/

/-- A Datapool that an application sees. -/
structure VisibleDatapool where
  /-- Its index in the node. -/
  index : Nat
  datapool : Datapool
  linkage : Linkage
  deriving DecidableEq

namespace Node

def applicationAt (n : Node) (index : Nat) : Except ExportError Application :=
  (n.application index).mapError .ofModel

def datapoolAt (n : Node) (index : Nat) : Except ExportError Datapool :=
  (n.datapool index).mapError .ofModel

/-- How an application reaches a Datapool, if it does. Private Datapools of others are for the host of the diagnostic
driver alone; so are public ones before layout 4. -/
def linkage? (n : Node) (application version : Nat) (d : Datapool) : Except ExportError (Option Linkage) :=
  match d.owner with
  | none => .ok none
  | some owner => do
    let _ ← n.applicationAt owner.toNat
    return if owner.toNat = application then some .own
      else if !d.isPrivate && 4 ≤ version then some .remotePublic
      else if n.isHost application then some .remote
      else none

/-- The Datapools with elements that an application sees, in the order of the node. -/
def visibleDatapools (n : Node) (application version : Nat) : Except ExportError (List VisibleDatapool) := do
  let linked ← (n.datapools.zipIdx.filter fun (d, _) => !d.isEmpty).mapM fun (d, i) =>
    return (← n.linkage? application version d).map fun l => (⟨i, d, l⟩ : VisibleDatapool)
  return linked.filterMap id

/-! ## Datapools -/

/-- The version of one part of the generated code. -/
def layout (a : Application) (version? : Nat → Option Nat) (domain : String) : Except ExportError Nat :=
  match version? a.formatVersion.toNat with
  | some v => .ok v
  | none => .error (.unsupported (.noLayout a.formatVersion a.name domain))

/-- The Datapool as its code names it. -/
def namedDatapool (n : Node) (v : VisibleDatapool) : Datapool :=
  if v.datapool.kind = .com then
    match n.protocolOf? v.index with
    | some p => v.datapool.renameSignals p
    | none => v.datapool
  else v.datapool

/-- The process of the owner of a Datapool, and the place of the Datapool there. -/
def ownerView (n : Node) (a : Application) (v : VisibleDatapool) (indexInApplication : Nat) :
    Except ExportError (UInt8 × Nat) :=
  match v.datapool.owner with
  | none => .ok (a.processId, indexInApplication)
  | some owner => do
    let o ← n.applicationAt owner.toNat
    let view ← n.visibleDatapools owner.toNat o.formatVersion.toNat
    match view.findIdx? (·.index = v.index) with
    | some i => return (o.processId, i)
    | none => throw (.structural (.hiddenFromOwner v.datapool.name o.name))

/-- The code of a Datapool that an application sees as its `i`-th. -/
def datapoolCode (n : Node) (a : Application) (o : ExportOptions) (v : VisibleDatapool) (i : Nat) :
    Except ExportError DatapoolCode := do
  let version ← layout a FormatVersion.datapool? "Datapool"
  let (processId, index) ← n.ownerView a v i
  return {
    application := a.name
    datapool := n.namedDatapool v
    indexInApplication := i
    version
    wantsScaling := o.wantsScaling
    linkage := v.linkage
    ownerProcessId := processId
    indexInOwner := index }

end Node

/-! ## Protocols -/

/-- A protocol on an interface that has code of its own. -/
structure ProtocolInterface where
  protocol : Protocol
  interface : UInt8
  container : Container
  deriving DecidableEq

namespace Node

/-- One interface of a protocol, if it has anything to send or receive. -/
def interfaceOf? (n : Node) (p : Protocol) (d : Datapool) (c : Container) (number : Nat) :
    Except ExportError (Option ProtocolInterface) :=
  if 2 ^ 8 ≤ number then .error (.range "CAN interfaces" number (2 ^ 8))
  else
    let interface := UInt8.ofNat number
    if !c.active || c.messageCount = 0 then .ok none
    else if (n.canInterface? interface).isNone then .error (.structural (.noInterface p.kind interface))
    else if d.isEmpty then .error (.structural (.emptyBacking p.kind interface d.name))
    else .ok (some ⟨p, interface, c⟩)

/-- The interfaces of a protocol whose Datapool the application owns. -/
def protocolInterfaces (n : Node) (application : Nat) (p : Protocol) : Except ExportError (List ProtocolInterface) := do
  let d ← n.datapoolAt p.datapoolIndex.toNat
  if d.owner.map UInt64.toNat ≠ some application then return []
  return (← p.containers.zipIdx.mapM fun (c, i) => n.interfaceOf? p d c i).filterMap id

def interfacesOf (n : Node) (application : Nat) : Except ExportError (List ProtocolInterface) := do
  return (← n.protocols.mapM (n.protocolInterfaces application)).flatten

/-- The Datapool of a protocol, with its elements named after the messages. -/
def comDatapool (n : Node) (p : Protocol) : Except ExportError Datapool := do
  let d ← n.datapoolAt p.datapoolIndex.toNat
  if d.kind ≠ .com then throw (.structural (.notCom p.kind d.name))
  return d.renameSignals p

def managerOn (n : Node) (interface : UInt8) : Except ExportError Manager :=
  match n.managers.get? interface with
  | some m => .ok m
  | none => .error (.structural (.missingManager interface))

def commCode (a : Application) (e : ProtocolInterface) (d : Datapool) : Except ExportError CommCode := do
  let version ← layout a FormatVersion.comm? "communication stack"
  return ⟨a.name, e.protocol.kind, e.interface, e.container, d, version⟩

def managerCode (n : Node) (a : Application) (e : ProtocolInterface) (d : Datapool) :
    Except ExportError ManagerCode := do
  let version ← layout a FormatVersion.canOpen? "CANopen"
  let m ← n.managerOn e.interface
  return ⟨a.name, e.interface, m, e.container, d, version⟩

/-- The pair of a protocol on an interface. -/
def protocolArtifact (n : Node) (a : Application) (e : ProtocolInterface) : Report Stop Artifact := do
  let d ← .orRefuse (n.comDatapool e.protocol)
  if e.protocol.kind = .canOpen then
    Artifact.manager (← .orRefuse (n.managerCode a e d))
  else
    Artifact.comm (← .orRefuse (commCode a e d))

end Node

namespace Artifact

/-- The table sizes of a manager pair. -/
def summary? (p : Artifact) : Option ManagerSummary :=
  match p.source with
  | .manager x => some (.of x.interface x.manager x.container)
  | _ => none

/-- The stem of a communication pair. -/
def protocolStem? (p : Artifact) : Option String :=
  match p.source with
  | .comm _ => some p.pair.stem
  | _ => none

/-- The variant of a pair of hardware channels. -/
def variant? (p : Artifact) : Option Halc.Variant :=
  match p.source with
  | .halc x => some x.variant
  | _ => none

end Artifact

namespace Node

def aggregateCode (a : Application) (managers : List ManagerSummary) : Except ExportError AggregateCode := do
  let version ← layout a FormatVersion.canOpen? "CANopen"
  return ⟨a.name, managers, version⟩

/-! ## Hardware channels -/

/-- The code for a Datapool of hardware channels; an application has at most one for each variant. -/
def halcCode (n : Node) (a : Application) (taken : List Halc.Variant) (d : Datapool) : Except ExportError HalcCode := do
  let variant := Halc.Variant.ofSafety d.isSafety
  if variant ∈ taken then throw (.structural (.secondHalc a.name variant))
  match n.halc with
  | none => throw (.structural (.noHalcConfig d.name))
  | some config =>
    let version ← layout a FormatVersion.halc? "HALC"
    return ⟨a.name, config, variant, d, version⟩

/-- The pairs for Datapools of hardware channels. -/
def halcArtifacts (n : Node) (a : Application) : List Halc.Variant → List Datapool → Report Stop (List Artifact)
  | _, [] => return []
  | taken, d :: ds => do
    let x ← .orRefuse (n.halcCode a taken d)
    let p ← Artifact.halc x
    return p :: (← n.halcArtifacts a (taken ++ [x.variant]) ds)

/-- The Datapools of hardware channels that an application owns. -/
def halcDatapools (n : Node) (application : Nat) : List Datapool :=
  (n.ownedBy application).filterMap (n.datapools[·]?) |>.filter (·.kind.isHalc)

def planHalc (n : Node) (application : Nat) (a : Application) : Report Stop (List Artifact) :=
  n.halcArtifacts a [] (n.halcDatapools application)

/-! ## Plans -/

/-- The start table of an application. -/
def startCode (n : Node) (application : Nat) (a : Application) (datapools : List Datapool) (protocols : List String)
    (hasCanOpen : Bool) (halc : List Halc.Variant) : Except ExportError StartCode := do
  let version ← layout a FormatVersion.start? "runtime-init"
  return {
    application := a.name
    datapools
    protocols
    hasCanOpen
    halc
    driver := if n.isHost application then some ⟨a.processId, n.server, n.interfaces⟩ else none
    version }

/-- The plan of an application that is compiled: the start table, the Datapools, the protocols, all CANopen managers
together, and the hardware channels. -/
def planProgrammable (n : Node) (application : Nat) (a : Application) (o : ExportOptions) :
    Report Stop (List Artifact) := do
  let visible ← .orRefuse (n.visibleDatapools application a.formatVersion.toNat)
  let interfaces ← .orRefuse (n.interfacesOf application)
  .tell (.debug (Event.application a.name)
    s!"Planned {decimal visible.length} Datapools and {decimal interfaces.length} protocol interfaces")
  let datapools ← visible.zipIdx.mapM fun (v, i) => do
    Artifact.datapool (← .orRefuse (n.datapoolCode a o v i))
  let protocols ← interfaces.mapM (n.protocolArtifact a)
  let managers := protocols.filterMap Artifact.summary?
  let aggregate ← if managers.isEmpty then pure []
    else do pure [← Artifact.aggregate (← .orRefuse (aggregateCode a managers))]
  let halc ← n.planHalc application a
  let x ← .orRefuse (n.startCode application a (visible.map (·.datapool)) (protocols.filterMap Artifact.protocolStem?)
    (!managers.isEmpty) (halc.filterMap Artifact.variant?))
  let start ← Artifact.start x
  return start :: datapools ++ protocols ++ aggregate ++ halc

/-- The plan of an application. -/
def plan (n : Node) (application : Nat) (o : ExportOptions) : Report Stop (List Artifact) := do
  let a ← .orRefuse (n.applicationAt application)
  if !FormatVersion.isKnown a.formatVersion.toNat then
    .fail (.refused (.unsupported (.unknownVersion a.formatVersion a.name)))
  else match a.kind with
    | .programmable => n.planProgrammable application a o
    | .parameterSetHalc => n.planHalc application a
    | .binary => .fail (.refused (.unsupported (.binary a.name)))

end Node

end BusNode
