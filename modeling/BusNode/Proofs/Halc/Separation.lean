import BusNode.Halc.Code
import BusNode.Proofs.Success
import Mathlib.Data.List.Perm.Basic
/-!
# Safe and non-safe channels stay apart

In the mode with dropping each variant has the channels of its own safety level only. What the code of a variant depends
on is said by a relation of domains that leaves the other channels out.

* `Halc.Domain.AlikeFor` — a variant cannot tell two domains apart;
* `HalcCode.domainCode_eq_of_alikeFor` — such domains have the same records, or the same fault;
* `HalcCode.variants_stay_apart` — each channel is in one variant, and the pair of the other one is the same whatever
  the channel is.
-/

namespace BusNode

open Halc

namespace Halc

variable {v : Variant} {d d' : Domain} {c : Channel}

/-! ## Visible channels -/

theorem Variant.isSafe_eq_iff {b : Bool} : b = v.isSafe ↔ v = .ofSafety b := by
  cases b <;> cases v <;> decide

namespace Domain

theorem mem_visible : c ∈ d.visible .twoLevelsWithDropping v ↔ c ∈ d.channels ∧ v = .ofSafety c.isSafety := by
  unfold visible SafetyMode.shows
  rw [List.mem_filter, beq_iff_eq, Variant.isSafe_eq_iff]

/-- Together the variants have every channel as often as the domain has it. -/
theorem visible_perm (d : Domain) :
    (d.visible .twoLevelsWithDropping .safe ++ d.visible .twoLevelsWithDropping .nonSafe).Perm d.channels := by
  have hother : d.visible .twoLevelsWithDropping .nonSafe =
      d.channels.filter fun c => !SafetyMode.shows .twoLevelsWithDropping c.isSafety .safe :=
    List.filter_congr fun c _ => by cases c.isSafety <;> rfl
  rw [hother]
  exact List.filter_append_perm _ d.channels

/-- The domains have the same channels for the variant, and differ in no more than the number and the content of the
others; one without any channel is like no other one. -/
structure AlikeFor (v : Variant) (d d' : Domain) : Prop where
  name : d.name = d'.name
  parameters : d.parameters = d'.parameters
  domainValues : d.domainValues = d'.domainValues
  visible : d.visible .twoLevelsWithDropping v = d'.visible .twoLevelsWithDropping v
  isEmpty : d.channels.isEmpty = d'.channels.isEmpty

theorem AlikeFor.isEmitted (h : AlikeFor v d d') (mode : SafetyMode) : d.isEmitted mode = d'.isEmitted mode := by
  unfold Domain.isEmitted
  rw [h.isEmpty, h.parameters]

end Domain

end Halc

namespace HalcCode

variable {v : Variant} {d d' : Domain} {x : HalcCode} {config : Config}

/-! ## Records -/

/-- A record has the name and the parameters of its domain, and no more of it. -/
theorem record_eq_of_alikeFor (h : d.AlikeFor v d') : record d = record d' := by
  have hfield : field d = field d' := by
    unfold field
    rw [h.name]
  unfold record
  rw [hfield, h.name, h.parameters]

theorem channels_eq_of_alikeFor (hx : x.config.safetyMode = .twoLevelsWithDropping)
    (hconfig : config.safetyMode = .twoLevelsWithDropping) (h : d.AlikeFor x.variant d') :
    x.channels d = { x with config }.channels d' := by
  show d.visible x.config.safetyMode x.variant = d'.visible config.safetyMode x.variant
  rw [hx, hconfig, h.visible]

theorem domainRecords_eq_of_alikeFor (hx : x.config.safetyMode = .twoLevelsWithDropping)
    (hconfig : config.safetyMode = .twoLevelsWithDropping) (h : d.AlikeFor x.variant d') :
    x.domainRecords d = { x with config }.domainRecords d' := by
  have htype : x.channelType d = { x with config }.channelType d' := by
    unfold channelType
    rw [h.name]
    rfl
  have hsingle : x.singleName d = { x with config }.singleName d' := by
    unfold singleName
    rw [h.name]
    rfl
  have harray : x.arrayName d = { x with config }.arrayName d' := by
    unfold arrayName
    rw [h.name]
    rfl
  have hvalues : x.valuesName d = { x with config }.valuesName d' := by
    unfold valuesName
    rw [h.name]
    rfl
  unfold domainRecords channelRecord
  rw [channels_eq_of_alikeFor hx hconfig h, record_eq_of_alikeFor h, htype, hsingle, harray, hvalues, h.isEmpty,
    h.parameters, h.domainValues]

/-- A variant that cannot tell two domains apart has the same records for them, or the same fault. -/
theorem domainCode_eq_of_alikeFor (hx : x.config.safetyMode = .twoLevelsWithDropping)
    (hconfig : config.safetyMode = .twoLevelsWithDropping) (h : d.AlikeFor x.variant d') :
    x.domainCode d = { x with config }.domainCode d' := by
  unfold domainCode
  rw [domainRecords_eq_of_alikeFor hx hconfig h, channels_eq_of_alikeFor hx hconfig h, h.name]

/-! ## Pair -/

variable {id : Identifier}

theorem domains_alikeFor (hx : x.config.safetyMode = .twoLevelsWithDropping)
    (hconfig : config.safetyMode = .twoLevelsWithDropping)
    (h : List.Forall₂ (Domain.AlikeFor x.variant) x.config.domains config.domains) :
    List.Forall₂ (Domain.AlikeFor x.variant) x.domains { x with config }.domains := by
  refine List.rel_filter (fun d d' hd => ?_) h
  show d.isEmitted x.config.safetyMode = true ↔ d'.isEmitted config.safetyMode = true
  rw [hx, hconfig, hd.isEmitted]

theorem header_eq_of_alikeFor (hx : x.config.safetyMode = .twoLevelsWithDropping)
    (hconfig : config.safetyMode = .twoLevelsWithDropping)
    (h : List.Forall₂ (Domain.AlikeFor x.variant) x.config.domains config.domains) :
    x.header id = { x with config }.header id := by
  have hdomains := domains_alikeFor hx hconfig h
  have hcounts : (x.domains.map fun d => Item.define s!"{upper x.stem}_{upper d.name}_NUMBER_OF_CHANNELS" ""
        (.number (x.channels d).length)) =
      { x with config }.domains.map fun (d : Domain) =>
        Item.define s!"{upper x.stem}_{upper d.name}_NUMBER_OF_CHANNELS" ""
          (.number ({ x with config }.channels d).length) :=
    map_eq_of_forall₂ hdomains fun d d' hd => by rw [channels_eq_of_alikeFor hx hconfig hd, hd.name]
  have htypes : (x.domains.map fun d => [Item.blank,
        .recordType (x.channelType d) ("uint32 u32_UseCase;" :: d.parameters.map Parameter.declaration)]) =
      { x with config }.domains.map fun (d : Domain) => [Item.blank, .recordType ({ x with config }.channelType d)
        ("uint32 u32_UseCase;" :: d.parameters.map Parameter.declaration)] :=
    map_eq_of_forall₂ hdomains fun d d' hd => by
      unfold channelType
      rw [hd.name, hd.parameters]
      rfl
  unfold header
  dsimp only
  rw [List.flatMap_def, List.flatMap_def, htypes, hcounts, hdomains.length_eq]
  rfl

theorem source_eq_of_alikeFor (hx : x.config.safetyMode = .twoLevelsWithDropping)
    (hconfig : config.safetyMode = .twoLevelsWithDropping)
    (h : List.Forall₂ (Domain.AlikeFor x.variant) x.config.domains config.domains) :
    x.source id = { x with config }.source id := by
  have hmode : x.mode = { x with config }.mode := hx.trans hconfig.symm
  unfold source
  rw [mapM_eq_of_forall₂ (domains_alikeFor hx hconfig h) fun d d' => domainCode_eq_of_alikeFor hx hconfig, hmode]
  rfl

/-- **Channels of one safety level do not reach the variant of the other one.** In the mode with dropping each channel
is in one variant, in its place among the channels of that variant. The pair of a variant is the same, and so is what is
told on the way, for any two configurations whose domains it cannot tell apart; if one of them has a fault, the other
one has the same. -/
theorem variants_stay_apart :
    (∀ config : Config, config.safetyMode = .twoLevelsWithDropping → ∀ d ∈ config.domains,
      (∀ c ∈ d.channels, ∃! v, c ∈ d.visible config.safetyMode v) ∧
      (∀ v, (d.visible config.safetyMode v).Sublist d.channels) ∧
      (d.visible config.safetyMode .safe ++ d.visible config.safetyMode .nonSafe).Perm d.channels) ∧
    ∀ (x : HalcCode) (config : Config), x.config.safetyMode = .twoLevelsWithDropping →
      config.safetyMode = .twoLevelsWithDropping →
      List.Forall₂ (Domain.AlikeFor x.variant) x.config.domains config.domains →
      ∀ id, x.generate id = { x with config }.generate id := by
  refine ⟨fun config hconfig d _ => ⟨fun c hc => ?_, fun v => List.filter_sublist, ?_⟩,
    fun x config hx hconfig h id => ?_⟩
  · rw [hconfig]
    exact ⟨.ofSafety c.isSafety, Domain.mem_visible.2 ⟨hc, rfl⟩, fun v hv => (Domain.mem_visible.1 hv).2⟩
  · rw [hconfig]
    exact d.visible_perm
  · unfold generate
    rw [source_eq_of_alikeFor hx hconfig h, header_eq_of_alikeFor hx hconfig h,
      (domains_alikeFor hx hconfig h).length_eq]
    rfl

def outputs (channels : List Channel) : Domain := ⟨"DigitalOut", [⟨"Filter", .u8⟩], [], channels⟩

/-- The hoist has digital outputs only. -/
def hoist (channels : List Channel) : Config := ⟨.twoLevelsWithDropping, [outputs channels]⟩

def brake : Channel := ⟨"Brake", "", true, 1, [.u8 4]⟩
def lamp : Channel := ⟨"Lamp", "", false, 2, [.u8 0]⟩

/-- The value of the horn is of a wrong type. -/
def horn : Channel := ⟨"Horn", "", false, 3, [.u16 0]⟩

def hoistCode (config : Config) (v : Variant) : HalcCode :=
  ⟨"Winch", config, v, Datapool.new "Outputs" .halc none, 1⟩

/-- The fault of the horn is one of the non-safe variant only. -/
theorem variants_stay_apart_hoist :
    (∃! v, lamp ∈ (outputs [lamp, brake]).visible .twoLevelsWithDropping v) ∧ ∃ p,
      ((hoistCode (hoist [lamp, brake]) .safe).generate ⟨"0A1B2C3D"⟩).result = .ok p ∧
      ((hoistCode (hoist [horn, brake, horn]) .safe).generate ⟨"0A1B2C3D"⟩).result = .ok p ∧
      ((hoistCode (hoist [horn, brake, horn]) .nonSafe).generate ⟨"0A1B2C3D"⟩).result.toOption.isNone := by
  obtain ⟨hvisible, hsame⟩ := variants_stay_apart
  obtain ⟨p, hp⟩ : ∃ p, ((hoistCode (hoist [lamp, brake]) .safe).generate ⟨"0A1B2C3D"⟩).result = .ok p :=
    exists_eq_ok (by decide +kernel)
  have hsame := hsame (hoistCode (hoist [lamp, brake]) .safe) (hoist [horn, brake, horn]) rfl rfl
    (.cons ⟨rfl, rfl, rfl, rfl, rfl⟩ .nil) ⟨"0A1B2C3D"⟩
  exact ⟨(hvisible (hoist [lamp, brake]) rfl _ (.head _)).1 lamp (.head _), p, hp,
    (congrArg Report.result hsame).symm.trans hp, by decide +kernel⟩

end HalcCode

end BusNode
