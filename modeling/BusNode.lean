import BusNode.Node.Export
import BusNode.Proofs.CanOpen.Reconfiguration
import BusNode.Proofs.Can.MuxGroup
import BusNode.Proofs.Code.Declared
import BusNode.Proofs.Can.Tables
import BusNode.Proofs.Can.Layout
import BusNode.Proofs.Code.Address
import BusNode.Proofs.Datapool.Check
import BusNode.Proofs.Datapool.Initializer
import BusNode.Proofs.Datapool.Code
import BusNode.Proofs.Datapool.Shape
import BusNode.Proofs.Can.Identity
import BusNode.Proofs.CanOpen.Identity
import BusNode.Proofs.Code.Symbol
import BusNode.Proofs.Datapool.Identity
import BusNode.Proofs.Halc.Identity
import BusNode.Proofs.Node.Identity
import BusNode.Proofs.CanOpen.Dcf
import BusNode.Proofs.Node.Visible
import BusNode.Proofs.Node.Address
import BusNode.Proofs.Code.Reference
import BusNode.Proofs.Can.Reference
import BusNode.Proofs.CanOpen.Tables
import BusNode.Proofs.Halc.Object
import BusNode.Proofs.Halc.Reference
import BusNode.Proofs.Node.Link
import BusNode.Proofs.Disk.Path
import BusNode.Proofs.Disk.Write
import BusNode.Proofs.Node.FileName
import BusNode.Proofs.Node.Export
import BusNode.Proofs.Node.Output
import BusNode.Proofs.Halc.Separation
import BusNode.Proofs.Node.Privacy
import BusNode.Proofs.Code.Closure
import BusNode.Proofs.Code.Definition
import BusNode.Proofs.Start.Reference
import BusNode.Proofs.CanOpen.Aggregate
import BusNode.Proofs.Node.Closure
import BusNode.Proofs.Disk.Tree
import BusNode.Proofs.Node.Atomicity
import BusNode.Proofs.Json.Restore
import BusNode.Proofs.Json.Abridge
import BusNode.Proofs.Node.Restore
import BusNode.Proofs.Node.Complete
import BusNode.Proofs.Code.Size
import BusNode.Proofs.Datapool.Size
import BusNode.Proofs.Node.Size
import BusNode.Proofs.Can.Rename
import BusNode.Proofs.Can.SignalRow
import BusNode.Proofs.Node.ElementName
import BusNode.Proofs.Can.Coverage
import BusNode.Proofs.CanOpen.Mapping
import BusNode.Proofs.Node.Handoff
import BusNode.Proofs.Can.Acceptance
import BusNode.Proofs.CanOpen.Acceptance
import BusNode.Proofs.Datapool.Acceptance
import BusNode.Proofs.CanOpen.Permission
import BusNode.Proofs.CanOpen.Order
import BusNode.Proofs.Can.Carrier
import BusNode.Proofs.CanOpen.Layout
import BusNode.Proofs.Halc.Layout
import BusNode.Proofs.Can.Descriptor
import BusNode.Proofs.Text.Words
import BusNode.Proofs.Code.Names
import BusNode.Proofs.Datapool.Names
import BusNode.Proofs.Datapool.Apart
import BusNode.Proofs.Can.Distinct
import BusNode.Proofs.Datapool.Count
import BusNode.Proofs.Can.Plain
import BusNode.Proofs.Node.Reach
import BusNode.Proofs.Code.IntegerConstant
import BusNode.Proofs.Code.FloatLiteral
import BusNode.Proofs.Datapool.Bytes
import BusNode.Proofs.Node.Placement
import BusNode.Proofs.Code.Braces
