import BusNode.Node.Snapshot
import BusNode.Proofs.Can.Snapshot
import BusNode.Proofs.Code.Literal
import BusNode.Proofs.Halc.Snapshot
import BusNode.Proofs.Json.Abridge
import BusNode.Proofs.Node.Snapshot
/-!
# Snapshots read back

* `Scalar.restores` — a number is read back if it is finite and its text is read back;
* `Node.restores` — a node is read back if its numbers are;
* `Node.read_abridged` — the text of a node is read as the node, and so is every text with fields left out that have
  the value they are then taken for.

A type of the node that has no number is read back whatever it holds. The JSON reader does not take every text of a
floating point number for the nearest number, so that a text is read back is a hypothesis on the numbers of the node.
-/

namespace BusNode

open Codec.Restores

/-! ## Numbers -/

theorem ScalarType.restores (t : ScalarType) : codec.Restores t := enumeration (by cases t <;> rfl)

namespace Scalar

/-- The text of a floating point number is read back as the number. -/
def ReadsBack : Scalar → Prop
  | .f32 v => (Numeral.parse? (singleText v).toList).bind Numeral.single? = some v
  | .f64 v => (Numeral.parse? (doubleText v).toList).bind Numeral.double? = some v
  | _ => True

instance : DecidablePred ReadsBack := fun v => by
  cases v <;> unfold ReadsBack <;> infer_instance

/-- A value is read by the type that it is written with. -/
theorem read_tagged (t : ScalarType) (j : Json) : codec.read (Codec.tagged t.name j) = readAs t j := by
  show (ScalarType.all.find? (·.name = t.name)).bind (readAs · j) = _
  rw [show ScalarType.all.find? (·.name = t.name) = some t from ScalarType.restores t, Option.bind_some]

/-- A finite value is read back if its text is. -/
theorem restores {v : Scalar} (hfinite : v.isFinite = true) (htext : v.ReadsBack) : codec.Restores v := by
  cases v with
  | u8 v => exact (read_tagged .u8 _).trans (congrArg (Option.map u8) (uint8 v))
  | s8 v => exact (read_tagged .s8 _).trans (congrArg (Option.map s8) (int8 v))
  | u16 v => exact (read_tagged .u16 _).trans (congrArg (Option.map u16) (uint16 v))
  | s16 v => exact (read_tagged .s16 _).trans (congrArg (Option.map s16) (int16 v))
  | u32 v => exact (read_tagged .u32 _).trans (congrArg (Option.map u32) (uint32 v))
  | s32 v => exact (read_tagged .s32 _).trans (congrArg (Option.map s32) (int32 v))
  | u64 v => exact (read_tagged .u64 _).trans (congrArg (Option.map u64) (uint64 v))
  | s64 v => exact (read_tagged .s64 _).trans (congrArg (Option.map s64) (int64 v))
  | f32 v => exact (read_tagged .f32 _).trans (congrArg (Option.map f32) (single hfinite htext))
  | f64 v => exact (read_tagged .f64 _).trans (congrArg (Option.map f64) (double hfinite htext))

theorem restores_f64_iff {x : Binary64} : codec.Restores (.f64 x) ↔ Codec.double.Restores x := by
  have hread : codec.read (codec.write (.f64 x)) = (Codec.double.read (Codec.double.write x)).map f64 :=
    read_tagged .f64 _
  rw [Codec.Restores, hread, Codec.Restores]
  simp

end Scalar

theorem ElementAccess.restores (a : ElementAccess) : codec.Restores a :=
  enumeration (by cases a <;> rfl)

namespace Element

/-- All numbers of the element: its contents, its factor and its offset. -/
def scalars (e : Element) : List Scalar :=
  e.default ++ e.min ++ e.max ++ e.dataSetValues.flatten ++ [.f64 e.factor, .f64 e.offset]

theorem restores {e : Element} (h : ∀ v ∈ e.scalars, Scalar.codec.Restores v) : codec.Restores e := by
  have hcontent {c : Content} (hc : ∀ v ∈ c, v ∈ e.scalars) : Content.codec.Restores c :=
    list fun v hv => h v (hc v hv)
  have hdefault : Content.codec.Restores e.default := hcontent fun v hv => by simp [scalars, hv]
  have hmin : Content.codec.Restores e.min := hcontent fun v hv => by simp [scalars, hv]
  have hmax : Content.codec.Restores e.max := hcontent fun v hv => by simp [scalars, hv]
  have hdataSets : (Codec.list Content.codec).Restores e.dataSetValues :=
    list fun c hc => hcontent fun v hv => by
      have := List.mem_flatten_of_mem hc hv
      simp [scalars, this]
  have hfactor : Codec.double.Restores e.factor := Scalar.restores_f64_iff.1 (h _ (by simp [scalars]))
  have hoffset : Codec.double.Restores e.offset := Scalar.restores_f64_iff.1 (h _ (by simp [scalars]))
  exact record ⟨by decide, fun _ => rfl, fun _ => rfl⟩ <|
    .cons (string _) <| .cons (string _) <| .cons (ScalarType.restores _) <|
    .cons (option (fun _ h => nomatch h) fun v _ => uint32 v) <| .cons hdefault <| .cons hmin <| .cons hmax <|
    .cons hdataSets <| .cons hfactor <| .cons hoffset <| .cons (string _) <| .cons (ElementAccess.restores _) <|
    .cons (bool _) <| .cons (uint32 _) .nil

end Element

theorem DataSet.restores (d : DataSet) : codec.Restores d :=
  record ⟨by decide, fun _ => rfl, fun _ => rfl⟩ (.cons (string _) <| .cons (string _) .nil)

namespace ElementList

def scalars (l : ElementList) : List Scalar := l.elements.flatMap Element.scalars

theorem restores {l : ElementList} (h : ∀ v ∈ l.scalars, Scalar.codec.Restores v) : codec.Restores l := by
  have helements : (Codec.list Element.codec).Restores l.elements :=
    list fun e he => Element.restores fun v hv => h v (List.mem_flatMap_of_mem he hv)
  exact record ⟨by decide, fun _ => rfl, fun _ => rfl⟩ <|
    .cons (string _) <| .cons (string _) <| .cons (uint32 _) <| .cons (uint32 _) <| .cons (bool _) <|
    .cons helements <| .cons (list fun d _ => DataSet.restores d) .nil

end ElementList

theorem DatapoolKind.restores (k : DatapoolKind) : codec.Restores k := enumeration (by cases k <;> rfl)

namespace Datapool

def scalars (d : Datapool) : List Scalar := d.lists.flatMap ElementList.scalars

theorem restores_version (v : UInt8 × UInt8 × UInt8) : versionCodec.Restores v := by
  have h (a : UInt8) : Codec.uint8.read (Codec.uint8.write a) = some a := uint8 a
  simp only [Codec.Restores, versionCodec, h]
  rfl

theorem restores {d : Datapool} (h : ∀ v ∈ d.scalars, Scalar.codec.Restores v) : codec.Restores d := by
  have hlists : (Codec.list ElementList.codec).Restores d.lists :=
    list fun l hl => ElementList.restores fun v hv => h v (List.mem_flatMap_of_mem hl hv)
  exact record ⟨by decide, fun _ => rfl, fun _ => rfl⟩ <|
    .cons (string _) <| .cons (string _) <| .cons (DatapoolKind.restores _) <| .cons (bool _) <|
    .cons (restores_version _) <| .cons (option (fun _ h => nomatch h) fun v _ => uint64 v) <| .cons (bool _) <|
    .cons (uint32 _) <| .cons (uint32 _) <| .cons hlists .nil

end Datapool

/-! ## Devices and managers -/

namespace CanOpen

theorem DeviceId.restores (d : DeviceId) : codec.Restores d :=
  record ⟨by decide, fun _ => rfl, fun _ => rfl⟩ (.cons (uint32 _) <| .cons (uint8 _) .nil)

theorem Access.restores (a : Access) : codec.Restores a := enumeration (by cases a <;> rfl)

theorem Entry.restores (e : Entry) : codec.Restores e :=
  record ⟨by decide, fun _ => rfl, fun _ => rfl⟩ (.cons (string _) <| .cons (Access.restores _) .nil)

theorem Dictionary.restores (d : Dictionary) : codec.Restores d := by
  have hobjects : (Codec.sortedMap (2 ^ 16) UInt16.ofNat
      (Codec.sortedMap (2 ^ 8) UInt8.ofNat Entry.codec)).Restores d.objects :=
    sortedMap bounds_uint16 fun _ _ => sortedMap bounds_uint8 fun e _ => Entry.restores e.2
  exact record ⟨by decide, fun _ => rfl, fun _ => rfl⟩ (.cons hobjects .nil)

theorem Device.restores (d : Device) : codec.Restores d :=
  record ⟨by decide, fun _ => rfl, fun _ => rfl⟩ <|
    .cons (DeviceId.restores _) <| .cons (string _) <| .cons (uint8 _) <| .cons (bool _) <| .cons (bool _) <|
    .cons (bool _) <| .cons (uint8 _) <| .cons (bool _) <| .cons (uint16 _) <| .cons (bool _) <| .cons (uint16 _) <|
    .cons (Dictionary.restores _) .nil

theorem FailurePolicy.restores (p : FailurePolicy) : codec.Restores p := enumeration (by cases p <;> rfl)

theorem Manager.restores (m : Manager) : codec.Restores m :=
  record ⟨by decide, fun _ => rfl, fun _ => rfl⟩ <|
    .cons (uint8 _) <| .cons (bool _) <| .cons (bool _) <| .cons (bool _) <| .cons (FailurePolicy.restores _) <|
    .cons (bool _) <| .cons (uint16 _) <| .cons (uint16 _) <| .cons (bool _) <| .cons (uint32 _) <|
    .cons (uint32 _) <| .cons (list fun d _ => Device.restores d) .nil

end CanOpen

/-! ## Messages -/

namespace Can

theorem ProtocolKind.restores (k : ProtocolKind) : codec.Restores k := enumeration (by cases k <;> rfl)

theorem Trigger.restores (t : Trigger) : codec.Restores t := enumeration (by cases t <;> rfl)

theorem ByteOrder.restores (o : ByteOrder) : codec.Restores o := enumeration (by cases o <;> rfl)

namespace MuxRole

theorem read_multiplexed (digits : String) :
    codec.read (Codec.tagged "Multiplexed" (.number digits)) =
      (Codec.uint16.read (.number digits)).map multiplexed := rfl

theorem restores (r : MuxRole) : codec.Restores r := by
  cases r with
  | none => rfl
  | multiplexer => rfl
  | multiplexed v => exact (read_multiplexed _).trans (congrArg (Option.map multiplexed) (uint16 v))

end MuxRole

theorem Signal.restores (s : Signal) : codec.Restores s :=
  record ⟨by decide, fun _ => rfl, fun _ => rfl⟩ <|
    .cons (uint16 _) <| .cons (uint16 _) <| .cons (ByteOrder.restores _) <| .cons (MuxRole.restores _) <|
    .cons (uint32 _) <| .cons (uint16 _) <| .cons (uint8 _) .nil

theorem Message.restores (m : Message) : codec.Restores m :=
  record ⟨by decide, fun _ => rfl, fun _ => rfl⟩ <|
    .cons (string _) <| .cons (string _) <| .cons (uint32 _) <| .cons (bool _) <| .cons (uint16 _) <|
    .cons (Trigger.restores _) <| .cons (uint8 _) <| .cons (uint32 _) <| .cons (uint16 _) <| .cons (uint32 _) <|
    .cons (list fun s _ => Signal.restores s) <|
    .cons (option (fun _ h => nomatch h) fun d _ => CanOpen.DeviceId.restores d) <|
    .cons (uint16 _) <| .cons (bool _) .nil

theorem Container.restores (c : Container) : codec.Restores c :=
  record ⟨by decide, fun _ => rfl, fun _ => rfl⟩ <|
    .cons (bool _) <| .cons (list fun m _ => Message.restores m) <| .cons (list fun m _ => Message.restores m) .nil

theorem Protocol.restores (p : Protocol) : codec.Restores p :=
  record ⟨by decide, fun _ => rfl, fun _ => rfl⟩ <|
    .cons (ProtocolKind.restores _) <| .cons (uint64 _) <| .cons (list fun c _ => Container.restores c) .nil

end Can

/-! ## Hardware channels -/

namespace Halc

theorem SafetyMode.restores (m : SafetyMode) : codec.Restores m := enumeration (by cases m <;> rfl)

theorem Parameter.restores (p : Parameter) : codec.Restores p :=
  record ⟨by decide, fun _ => rfl, fun _ => rfl⟩ (.cons (string _) <| .cons (ScalarType.restores _) .nil)

theorem Channel.restores {c : Channel} (h : ∀ v ∈ c.values, Scalar.codec.Restores v) : codec.Restores c :=
  record ⟨by decide, fun _ => rfl, fun _ => rfl⟩ <|
    .cons (string _) <| .cons (string _) <| .cons (bool _) <| .cons (uint32 _) <| .cons (list h) .nil

namespace Domain

def scalars (d : Domain) : List Scalar := d.domainValues ++ d.channels.flatMap (·.values)

theorem restores {d : Domain} (h : ∀ v ∈ d.scalars, Scalar.codec.Restores v) : codec.Restores d := by
  have hchannels : (Codec.list Channel.codec).Restores d.channels :=
    list fun c hc => Channel.restores fun v hv => h v (List.mem_append_right _ (List.mem_flatMap_of_mem hc hv))
  exact record ⟨by decide, fun _ => rfl, fun _ => rfl⟩ <|
    .cons (string _) <| .cons (list fun p _ => Parameter.restores p) <|
    .cons (list fun v hv => h v (List.mem_append_left _ hv)) <| .cons hchannels .nil

end Domain

namespace Config

def scalars (c : Config) : List Scalar := c.domains.flatMap Domain.scalars

theorem restores {c : Config} (h : ∀ v ∈ c.scalars, Scalar.codec.Restores v) : codec.Restores c := by
  have hdomains : (Codec.list Domain.codec).Restores c.domains :=
    list fun d hd => Domain.restores fun v hv => h v (List.mem_flatMap_of_mem hd hv)
  exact record ⟨by decide, fun _ => rfl, fun _ => rfl⟩ (.cons (SafetyMode.restores _) <| .cons hdomains .nil)

end Config

end Halc

/-! ## Nodes -/

theorem ApplicationKind.restores (k : ApplicationKind) : codec.Restores k := enumeration (by cases k <;> rfl)

theorem Application.restores (a : Application) : codec.Restores a :=
  record ⟨by decide, fun _ => rfl, fun _ => rfl⟩ <|
    .cons (string _) <| .cons (string _) <| .cons (ApplicationKind.restores _) <| .cons (uint16 _) <|
    .cons (uint8 _) <| .cons (bool _) .nil

theorem BusKind.restores (k : BusKind) : codec.Restores k := enumeration (by cases k <;> rfl)

theorem BusInterface.restores (i : BusInterface) : codec.Restores i :=
  record ⟨by decide, fun _ => rfl, fun _ => rfl⟩ <|
    .cons (BusKind.restores _) <| .cons (uint8 _) <| .cons (uint8 _) <| .cons (bool _) <| .cons (bool _) <|
    .cons (uint32 _) .nil

theorem ServerSettings.restores (s : ServerSettings) : codec.Restores s :=
  record ⟨by decide, fun _ => rfl, fun _ => rfl⟩ <|
    .cons (option (fun _ h => nomatch h) fun v _ => uint64 v) <| .cons (uint8 _) <| .cons (uint8 _) <|
    .cons (uint16 _) <| .cons (uint16 _) .nil

namespace Node

/-- All numbers of the node that may be floating point numbers. -/
def scalars (n : Node) : List Scalar :=
  n.datapools.flatMap Datapool.scalars ++ n.halc.toList.flatMap Halc.Config.scalars

theorem restores {n : Node} (h : ∀ v ∈ n.scalars, Scalar.codec.Restores v) : codec.Restores n := by
  have hdatapools : (Codec.list Datapool.codec).Restores n.datapools :=
    list fun d hd => Datapool.restores fun v hv => h v (List.mem_append_left _ (List.mem_flatMap_of_mem hd hv))
  have hhalc : (Codec.option Halc.Config.codec).Restores n.halc :=
    option (fun _ hnull => nomatch hnull) fun c hc => Halc.Config.restores fun v hv =>
      h v (List.mem_append_right _ (List.mem_flatMap_of_mem (Option.mem_toList.2 hc) hv))
  have hmanagers : (Codec.sortedMap (2 ^ 8) UInt8.ofNat CanOpen.Manager.codec).Restores n.managers :=
    sortedMap bounds_uint8 fun e _ => CanOpen.Manager.restores e.2
  exact record ⟨by decide, fun _ => rfl, fun _ => rfl⟩ <|
    .cons (string _) <| .cons (list fun a _ => Application.restores a) <| .cons hdatapools <|
    .cons (list fun p _ => Can.Protocol.restores p) <| .cons hmanagers <| .cons hhalc <|
    .cons (list fun i _ => BusInterface.restores i) <| .cons (ServerSettings.restores _) .nil

theorem read_of_parse? {n : Node} {text : String} {j : Json} (hparse : Json.parse? text = some j)
    (hread : codec.read j = some n) : read text = .ok n := by
  rw [read, hparse, Option.bind_some, hread]

/-- **A node is read from its text, and from its text with fields left out** that are declared with a default or may
be nothing, and whose value that is, wherever they stand. -/
theorem read_abridged {n : Node} (hfinite : ∀ v ∈ n.scalars, v.isFinite = true)
    (htext : ∀ v ∈ n.scalars, v.ReadsBack) :
    read n.write = .ok n ∧ ∀ j, codec.Abridges n j →
      read j.pretty = .ok n ∧ ∀ text, Json.parse? text = some j → read text = .ok n := by
  have hrestores : codec.Restores n := restores fun v hv => Scalar.restores (hfinite v hv) (htext v hv)
  refine ⟨read_of_parse? (Json.parse?_pretty n.isPlain_write) hrestores, fun j hj => ?_⟩
  have hread : codec.read j = some n := hj.read hrestores
  exact ⟨read_of_parse? (Json.parse?_pretty (hj.isPlain n.isPlain_write)) hread,
    fun text hparse => read_of_parse? hparse hread⟩

/-! ## A document with fields left out -/

/-- An element that is stored with an offset of two. -/
def diesel : Element := { Element.scalar "diesel" (.u8 3) (.u8 0) (.u8 9) with offset := .ofNat 2 }

/-- A node with a Datapool of one element. -/
def depot : Node :=
  { empty with
    name := "Depot"
    applications := [⟨"Panel", "", .programmable, 6, 0, true⟩]
    datapools := [{ Datapool.new "Tanks" .generic (some 0) with
      version := (0, 0, 0)
      lists := [{ ElementList.new "Levels" with elements := [diesel] }] }] }

/-- What is left of the element without the fields that have their default value. -/
def dieselDocument : Json := .object [
  (.plain "name", .string "diesel"),
  (.plain "value_type", .string "U8"),
  (.plain "default", .array [Codec.tagged "U8" (.number "3")]),
  (.plain "min", .array [Codec.tagged "U8" (.number "0")]),
  (.plain "max", .array [Codec.tagged "U8" (.number "9")]),
  (.plain "offset", .number (doubleText (.ofNat 2)))]

/-- What is left of the node without these fields. -/
def depotDocument : Json := .object [
  (.plain "name", .string "Depot"),
  (.plain "data_blocks", .array [.object [
    (.plain "name", .string "Panel"),
    (.plain "kind", .string "Programmable"),
    (.plain "code_format_version", .number "6"),
    (.plain "process_id", .number "0")]]),
  (.plain "datapools", .array [.object [
    (.plain "name", .string "Tanks"),
    (.plain "kind", .string "Generic"),
    (.plain "owner", .number "0"),
    (.plain "lists", .array [.object [
      (.plain "name", .string "Levels"),
      (.plain "elements", .array [dieselDocument])]])]]),
  (.plain "can_protocols", .array []),
  (.plain "server_settings", .object [
    (.plain "max_clients", .number "1"),
    (.plain "max_parallel_transmissions", .number "64"),
    (.plain "max_tx_message_buffer_size", .number "585"),
    (.plain "max_rx_routing_message_buffer_size", .number "585")])]

theorem abridges_dieselDocument : Element.codec.Abridges diesel dieselDocument := by
  have hfinite : (Binary.ofNat 2 : Binary64).isFinite = true := by decide +kernel
  have hoffset : Codec.double.Abridges (.ofNat 2) (.number (doubleText (.ofNat 2))) := by
    rw [← write_double hfinite]
    exact .whole
  exact .record ⟨by decide, fun _ => rfl, fun _ => rfl⟩ <|
    .kept .whole <| .left rfl <| .kept .whole <| .left rfl <| .kept .whole <| .kept .whole <| .kept .whole <|
    .left rfl <| .left rfl <| .kept hoffset <| .left rfl <| .left rfl <| .left rfl <| .left rfl .nil

theorem abridges_depotDocument : codec.Abridges depot depotDocument := by
  have hpanel : (Codec.list Application.codec).Abridges depot.applications _ := .singleton <|
    .record ⟨by decide, fun _ => rfl, fun _ => rfl⟩ <|
      .kept .whole <| .left rfl <| .kept .whole <| .kept .whole <| .kept .whole <| .left rfl .nil
  have hlevels : (Codec.list ElementList.codec).Abridges [{ ElementList.new "Levels" with elements := [diesel] }] _ :=
    .singleton <| .record ⟨by decide, fun _ => rfl, fun _ => rfl⟩ <|
      .kept .whole <| .left rfl <| .left rfl <| .left rfl <| .left rfl <| .kept (.singleton abridges_dieselDocument) <|
      .left rfl .nil
  have htanks : (Codec.list Datapool.codec).Abridges depot.datapools _ := .singleton <|
    .record ⟨by decide, fun _ => rfl, fun _ => rfl⟩ <|
      .kept .whole <| .left rfl <| .kept .whole <| .left rfl <| .left rfl <| .kept .whole <| .left rfl <|
      .left rfl <| .left rfl <| .kept hlevels .nil
  have hserver : ServerSettings.codec.Abridges .standard _ :=
    .record ⟨by decide, fun _ => rfl, fun _ => rfl⟩ <|
      .left rfl <| .kept .whole <| .kept .whole <| .kept .whole <| .kept .whole .nil
  exact .record ⟨by decide, fun _ => rfl, fun _ => rfl⟩ <|
    .kept .whole <| .kept hpanel <| .kept htanks <| .kept .whole <| .left rfl <| .left rfl <| .left rfl <|
    .kept hserver .nil

theorem read_depotDocument : read depotDocument.pretty = .ok depot :=
  ((read_abridged (by decide +kernel) (by decide +kernel)).2 _ abridges_depotDocument).1

end Node

end BusNode
