import BusNode.Proofs.Code.Definition
import BusNode.Proofs.Code.Names
import BusNode.Proofs.Halc.Reference
import BusNode.Proofs.Halc.Separation
/-!
# Layout of a pair of hardware channels

* `HalcCode.LaysDomain` — the row of a domain and its object;
* `HalcCode.Lays` — the table of domains, with the numbers that the header and the record of the variant give;
* `HalcCode.Lays.numbers_known_iff`, `HalcCode.Lays.declared_once_iff` — nothing checks the names of domains: when the
  name of a number has one meaning only, and that of an object one object;
* `HalcCode.channel_layout` — when a pair is generated, and that it is laid out so.
-/

namespace BusNode

open Halc

namespace HalcCode

/-! ## Statements -/

/-- What the source of a variant holds of a domain: its row, and its object if it has one. -/
structure DomainPart where
  row : DomainRow
  objects : List Item

/-- The items of a part, and its row. -/
def DomainPart.code (p : DomainPart) : List Item × DomainRow := (p.objects.flatMap fun i => [Item.blank, i], p.row)

/-- The part of a domain: the number of its visible channels, and the address of the object with their records. -/
structure LaysDomain (x : HalcCode) (d : Domain) (p : DomainPart) : Prop where
  name : p.row.name = d.name
  count : p.row.channelCount = (x.channels d).length
  own : p.row.channels = some (.whole (x.valuesName d)) ↔ d.channels = [] ∧ d.parameters ≠ []
  others : ¬(d.channels = [] ∧ d.parameters ≠ []) →
    p.row.channels = .select (x.channels d).length (x.singleName d) (x.arrayName d)
  object : x.IsObject d p.row.channels p.objects

/-- The name of the number of domains. -/
def domainsDefine (x : HalcCode) : String := s!"{upper x.stem}_NUMBER_OF_DOMAINS"

/-- The name of the number of channels of a domain. -/
def channelsDefine (x : HalcCode) (domain : String) : String := s!"{upper x.stem}_{upper domain}_NUMBER_OF_CHANNELS"

/-- The domains in the pair of a variant. -/
structure Lays (x : HalcCode) (pair : Pair) (parts : List DomainPart) : Prop where
  domains : List.Forall₂ x.LaysDomain x.domains parts
  table : pair.source.Tabulates "T_osy_hal_domain_configuration" x.domainsName (parts.map (·.row.row))
  /-- Of the name at an address, the source declares the objects of the rows with this address. -/
  objects : ∀ p ∈ parts, ∀ a, p.row.channels = some a →
    pair.source.declarations a.object = (parts.filter (·.row.channels = some a)).flatMap (·.objects)
  /-- The number of domains, and the number of channels of each. -/
  header : .define x.domainsDefine "" (.number parts.length) ::
    (parts.map fun p => .define (x.channelsDefine p.row.name) "" (.number p.row.channelCount)) <:+: pair.header.items
  types : ∀ d ∈ x.domains, .recordType (x.channelType d)
    ("uint32 u32_UseCase;" :: d.parameters.map Parameter.declaration) ∈ pair.header.items
  number : pair.header.meanings x.domainsDefine = [.number parts.length]
  /-- The name of a number of channels stands for those of the domains that share their name up to capitals. -/
  numbers : ∀ p ∈ parts, pair.header.meanings (x.channelsDefine p.row.name) =
    (parts.filter fun q => upper q.row.name = upper p.row.name).map (.number ·.row.channelCount)
  record : ∃ settings, pair.source.declarations x.variant.recordName =
    [.object (.sharedRecord "T_osy_hal_configuration" x.variant.recordName) (settings ++
      [.noted (Literal.count parts.length) "number of domains", .pointer (.slice x.domainsName 0 parts.length)]) none]
  resolves : pair.source.Resolves ⟨parts.length, .slice x.domainsName 0 parts.length⟩

variable {x : HalcCode} {d d' : Domain} {r : Entry} {id : Identifier} {name : String} {parts : List DomainPart}
  {p : DomainPart}

/-! ## Parts -/

/-- The code of the domains, taken apart. -/
theorem exists_parts {code : List (List Item × DomainRow)} (h : List.Forall₂ x.IsCode x.domains code) :
    ∃ parts, code = parts.map DomainPart.code ∧ List.Forall₂ x.LaysDomain x.domains parts := by
  refine exists_map_of_forall₂ (h.imp fun d c hc => ?_)
  obtain ⟨objects, hobject, hitems⟩ := hc.items
  exact ⟨⟨c.2, objects⟩, {
    name := hc.name
    count := hc.count
    own := hobject.own_iff
    others := hobject.eq_select
    object := hobject }, Prod.ext hitems rfl⟩

/-! ## Source -/

/-- The source of a variant with these parts. -/
def partedSource (x : HalcCode) (id : Identifier) (parts : List DomainPart) : File :=
  ⟨x.sourceItems id (parts.map (·.code.1)) (parts.map (·.row))⟩

/-- The record of the variant. -/
def recordItem (x : HalcCode) (rows : List DomainRow) : Item :=
  .object (.sharedRecord "T_osy_hal_configuration" x.variant.recordName) (x.recordRows rows) none

theorem declarations_source : (x.partedSource id parts).declarations name =
    (parts.flatMap fun p => File.declarations ⟨p.code.1⟩ name) ++
    (if x.domainsName = name then File.tableDeclaration "T_osy_hal_domain_configuration" x.domainsName
      (parts.map (·.row.row)) else []) ++
    if x.variant.recordName = name then [x.recordItem (parts.map (·.row))] else [] := by
  have hheading : File.declarations ⟨[Item.heading "Module Global Constants"]⟩ name = [] := rfl
  have htable : (if (parts.map (·.row)).isEmpty then []
      else [Item.blank, .object (.table "T_osy_hal_domain_configuration" x.domainsName (parts.map (·.row)).length)
        ((parts.map (·.row)).map DomainRow.row) none]) =
      CommCode.tableItems "T_osy_hal_domain_configuration" x.domainsName (parts.map (·.row.row)) := by
    unfold CommCode.tableItems
    simp only [List.isEmpty_map, List.length_map, List.map_map]
    rfl
  unfold partedSource sourceItems
  rw [File.declarations_append, File.declarations_append, File.declarations_append, File.declarations_append,
    File.declarations_sourceStart, hheading, htable, File.declarations_tableItems, ← List.flatMap_def,
    File.declarations_flatMap]
  exact congrArg _ File.declarations_sharedRecord

/-- A name that no domain has for its object. -/
theorem flatMap_declarations (h : List.Forall₂ x.LaysDomain x.domains parts) (hname : ∀ d, ¬x.IsName d name) :
    (parts.flatMap fun p => File.declarations ⟨p.code.1⟩ name) = [] := by
  refine List.flatMap_eq_nil_iff.2 fun p hp => ?_
  obtain ⟨d, -, hd⟩ := exists_of_mem_right h hp
  exact hd.object.declarations_eq_nil fun a ha hsame => hname d (hsame ▸ hd.object.isName ha)

theorem tabulates_domains (h : List.Forall₂ x.LaysDomain x.domains parts) :
    (x.partedSource id parts).Tabulates "T_osy_hal_domain_configuration" x.domainsName (parts.map (·.row.row)) := by
  have hrecord : x.variant.recordName ≠ x.domainsName := ne_of_ending (by simp)
  unfold File.Tabulates
  rw [declarations_source, flatMap_declarations h fun d hname => hname.ne.1 rfl, if_pos rfl, if_neg hrecord,
    List.nil_append, List.append_nil]

theorem declarations_recordName (h : List.Forall₂ x.LaysDomain x.domains parts) :
    (x.partedSource id parts).declarations x.variant.recordName = [x.recordItem (parts.map (·.row))] := by
  have hdomains : x.domainsName ≠ x.variant.recordName := ne_of_ending (by simp)
  rw [declarations_source, flatMap_declarations h fun d hname => hname.ne.2 rfl, if_pos rfl, if_neg hdomains,
    List.nil_append, List.nil_append]

/-- What the source declares of the name at the address of a domain. -/
theorem declarations_object (h : List.Forall₂ x.LaysDomain x.domains parts) (hp : p ∈ parts) {a : Place}
    (ha : p.row.channels = some a) : (x.partedSource id parts).declarations a.object =
      (parts.filter (·.row.channels = some a)).flatMap (·.objects) := by
  obtain ⟨d, -, ⟨-, -, -, -, hobject⟩⟩ := exists_of_mem_right h hp
  have hown : x.IsName d a.object := hobject.isName ha
  rw [ha] at hobject
  have hparts : (parts.flatMap fun q => File.declarations ⟨q.code.1⟩ a.object) =
      parts.flatMap fun q => if q.row.channels = some a then q.objects else [] := by
    refine List.flatMap_congr fun q hq => ?_
    obtain ⟨e, -, he⟩ := exists_of_mem_right h hq
    split
    · rename_i hsame
      exact he.object.declarations_eq hsame
    · rename_i hother
      refine he.object.declarations_eq_nil fun b hb hsame => hother ?_
      have he := he.object
      rw [hb] at he ⊢
      rw [he.place_eq hobject hsame]
  rw [declarations_source, hparts, flatMap_ite, if_neg hown.ne.1.symm, if_neg hown.ne.2.symm, List.append_nil,
    List.append_nil]

/-! ## Header -/

/-- The numbers of the header. -/
def numberItems (x : HalcCode) (parts : List DomainPart) : List Item :=
  .define x.domainsDefine "" (.number parts.length) ::
    parts.map fun p => .define (x.channelsDefine p.row.name) "" (.number p.row.channelCount)

/-- What follows the numbers. -/
def headerRest (x : HalcCode) : List Item :=
  [Item.heading "Types"] ++
    (x.domains.flatMap fun d =>
      [Item.blank, .recordType (x.channelType d) ("uint32 u32_UseCase;" :: d.parameters.map Parameter.declaration)]) ++
    [Item.heading "Global Constants",
      .declare (.externRecord "T_osy_hal_configuration" x.variant.recordName) none] ++
    File.headerEnd

theorem header_eq (h : List.Forall₂ x.LaysDomain x.domains parts) : x.header id =
    ⟨File.headerStart x.stem x.brief ["osy_hal_configuration.h", x.datapool.headerName] id ++
      .blank :: (x.numberItems parts ++ x.headerRest)⟩ := by
  have hnumbers : (x.domains.map fun d => Item.define (x.channelsDefine d.name) "" (.number (x.channels d).length)) =
      parts.map fun p => .define (x.channelsDefine p.row.name) "" (.number p.row.channelCount) :=
    map_eq_of_forall₂ h fun d p hd => by rw [← hd.name, ← hd.count]
  unfold numberItems headerRest
  rw [← hnumbers, ← h.length_eq]
  simp only [header, List.append_assoc, List.cons_append, List.nil_append]
  rfl

/-- What the header says of a name that its opening does not define. -/
theorem meanings_header (h : List.Forall₂ x.LaysDomain x.domains parts)
    (hstart : ∀ i ∈ File.headerStart x.stem x.brief ["osy_hal_configuration.h", x.datapool.headerName] id,
      i.meaning? name = none) :
    (x.header id).meanings name = (if x.domainsDefine = name then [.number parts.length] else []) ++
      parts.flatMap fun p => if x.channelsDefine p.row.name = name then [.number p.row.channelCount] else [] := by
  have hrest : x.headerRest.filterMap (Item.meaning? name) = [] := by
    refine List.filterMap_eq_nil_iff.2 fun i hi => ?_
    simp only [headerRest, File.headerEnd, List.mem_append, List.mem_cons, List.mem_flatMap, List.not_mem_nil,
      or_false] at hi
    rcases hi with ((rfl | ⟨-, -, rfl | rfl⟩) | rfl | rfl) | rfl | rfl <;> rfl
  have hnumbers : (parts.map fun p =>
      Item.define (x.channelsDefine p.row.name) "" (.number p.row.channelCount)).filterMap (Item.meaning? name) =
      parts.flatMap fun p => if x.channelsDefine p.row.name = name then [.number p.row.channelCount] else [] := by
    rw [List.filterMap_map, List.filterMap_eq_flatMap_toList]
    refine List.flatMap_congr fun p _ => ?_
    show (if x.channelsDefine p.row.name = name then some _ else none).toList = _
    split <;> rfl
  rw [header_eq h]
  unfold File.meanings
  rw [List.filterMap_append, List.filterMap_eq_nil_iff.2 hstart, List.nil_append, List.filterMap_cons_none rfl,
    List.filterMap_append, hrest, List.append_nil]
  exact (File.meanings_define ..).trans (congrArg _ hnumbers)

@[simp] theorem ending_channelsDefine (domain : String) : ending (x.channelsDefine domain) = ['S', 'L', 'E'] :=
  ending_append _ rfl rfl

@[simp] theorem ending_domainsDefine : ending x.domainsDefine = ['S', 'N', 'I'] := ending_append _ rfl rfl

/-- The header says how many domains there are. -/
theorem meanings_domainsDefine (h : List.Forall₂ x.LaysDomain x.domains parts) :
    (x.header id).meanings x.domainsDefine = [.number parts.length] := by
  have hprefix : (upper x.stem).toList ++ ['_', 'N'] <+: x.domainsDefine.toList := prefix_append (by decide)
  have hnone : (parts.flatMap fun p =>
      if x.channelsDefine p.row.name = x.domainsDefine then [Meaning.number p.row.channelCount] else []) = [] :=
    List.flatMap_eq_nil_iff.2 fun p _ => if_neg (ne_of_ending (by simp))
  rw [meanings_header h fun i hi => File.meaning?_of_mem_headerStart hprefix (by decide) (by decide) hi, if_pos rfl,
    hnone, List.append_nil]

/-- The identifier of the header ends with a digit, or in front of its digits. -/
theorem symbol_ne_channelsDefine (hid : ∀ c ∈ id.digits.toList, hexValue? c ≠ none) (domain : String) :
    id.symbol x.stem ≠ x.channelsDefine domain := by
  intro hsame
  -- The name of a number ends with a letter that is no digit.
  have hlast : (id.symbol x.stem).toList.getLast? = some 'S' := by
    rw [hsame]
    show (_ ++ "_NUMBER_OF_CHANNELS").toList.getLast? = _
    rw [String.toList_append, List.getLast?_append]
    rfl
  have hsymbol : (id.symbol x.stem).toList = (upper x.stem ++ "_PROJECT_ID_").toList ++ id.digits.toList :=
    String.toList_append
  rw [hsymbol, List.getLast?_append] at hlast
  cases hdigits : id.digits.toList.getLast? with
  | none =>
    rw [hdigits, String.toList_append, List.getLast?_append] at hlast
    exact absurd (Option.some.inj (hlast : some '_' = some 'S')) (by decide)
  | some c =>
    rw [hdigits] at hlast
    obtain rfl : c = 'S' := Option.some.inj hlast
    exact hid _ (List.mem_of_getLast? hdigits) (by decide)

theorem guard_ne_channelsDefine (domain : String) : upper x.stem ++ "_H" ≠ x.channelsDefine domain := by
  have hguard : ending (upper x.stem ++ "_H") = ['H', '_', 'E'] := by
    show ending (upper x.variant.stem ++ "_H") = _
    cases x.variant <;> decide +kernel
  exact ne_of_ending (by simp [hguard])

theorem channelsDefine_inj {domain domain' : String} :
    x.channelsDefine domain = x.channelsDefine domain' ↔ upper domain = upper domain' := by
  simp [channelsDefine, toString, String.append_left_inj, String.append_right_inj]

/-- The header says how many channels the domains have that share a name up to capitals. -/
theorem meanings_channelsDefine (h : List.Forall₂ x.LaysDomain x.domains parts)
    (hid : ∀ c ∈ id.digits.toList, hexValue? c ≠ none) (domain : String) :
    (x.header id).meanings (x.channelsDefine domain) =
      (parts.filter fun p => upper p.row.name = upper domain).map (.number ·.row.channelCount) := by
  have hstart : ∀ i ∈ File.headerStart x.stem x.brief ["osy_hal_configuration.h", x.datapool.headerName] id,
      i.meaning? (x.channelsDefine domain) = none := by
    intro i hi
    simp only [File.headerStart, List.mem_append, List.mem_cons, List.mem_map, List.not_mem_nil, or_false] at hi
    obtain ((rfl | rfl | rfl | rfl) | ⟨_, _, rfl⟩) | (rfl | rfl | rfl) := hi
    · rfl
    · exact if_neg (guard_ne_channelsDefine domain)
    · rfl
    · rfl
    · rfl
    · rfl
    · rfl
    · exact if_neg (symbol_ne_channelsDefine hid domain)
  rw [meanings_header h hstart, if_neg (ne_of_ending (by simp)), List.nil_append]
  simp only [channelsDefine_inj]
  rw [flatMap_ite, List.map_eq_flatMap]

/-! ## Pair -/

theorem lays (h : List.Forall₂ x.LaysDomain x.domains parts) (hid : ∀ c ∈ id.digits.toList, hexValue? c ≠ none) :
    x.Lays ⟨x.stem, x.header id, x.partedSource id parts⟩ parts := by
  have htable : (x.partedSource id parts).Tabulates _ _ _ := tabulates_domains h
  have hrecord : (x.partedSource id parts).declarations x.variant.recordName = [x.recordItem (parts.map (·.row))] :=
    declarations_recordName h
  refine {
    domains := h
    table := htable
    objects := fun p hp a ha => declarations_object h hp ha
    header := ?_
    types := fun d hd => ?_
    number := meanings_domainsDefine h
    numbers := fun p _ => meanings_channelsDefine h hid p.row.name
    record := ⟨[.constant x.variant.tag, .constant x.mode.tag, .pointer (some (.whole x.datapool.recordName))], ?_⟩
    resolves := htable.resolves (List.length_map ..) }
  · rw [header_eq h]
    exact ⟨File.headerStart x.stem x.brief ["osy_hal_configuration.h", x.datapool.headerName] id ++ [.blank],
      x.headerRest, by simp [numberItems]⟩
  · rw [header_eq h]
    refine List.mem_append_right _ (.tail _ (List.mem_append_right _ ?_))
    simp only [headerRest, List.mem_append, List.mem_flatMap]
    exact .inl (.inl (.inr ⟨d, hd, .tail _ (.head _)⟩))
  · rw [hrecord, recordItem, recordRows, List.length_map]
    rfl

theorem exists_lays {content : Json} {pair : Pair} (h : (x.generate (.ofContent content)).result = .ok pair) :
    ∃ parts, x.Lays pair parts := by
  obtain ⟨f, hf, rfl⟩ := generate_eq_ok h
  obtain ⟨code, hcode, rfl⟩ := exists_code hf
  obtain ⟨parts, rfl, hparts⟩ := exists_parts hcode
  have hsource : x.partedSource (.ofContent content) parts = ⟨x.sourceItems (.ofContent content)
      ((parts.map DomainPart.code).map (·.1)) ((parts.map DomainPart.code).map (·.2))⟩ := by
    simp only [partedSource, List.map_map]
    rfl
  rw [← hsource]
  exact ⟨parts, lays hparts (Identifier.digits_ofContent content)⟩

namespace Lays

variable {pair : Pair}

/-- A number of channels is known by its name just if the names of the domains differ beyond capitals. -/
theorem numbers_known_iff (h : x.Lays pair parts) :
    (∀ p ∈ parts, pair.header.meanings (x.channelsDefine p.row.name) = [.number p.row.channelCount]) ↔
      (x.domains.map fun d => upper d.name).Nodup := by
  have hnames : (x.domains.map fun d => upper d.name) = parts.map fun p => upper p.row.name :=
    map_eq_of_forall₂ h.domains fun d p hp => congrArg upper hp.name.symm
  rw [hnames, nodup_map_iff (Meaning.number ·.row.channelCount)]
  exact forall₂_congr fun p hp => by rw [h.numbers p hp]

/-- An object is the only one of its name just if no two domains have one address. -/
theorem declared_once_iff (h : x.Lays pair parts) :
    (∀ p ∈ parts, ∀ a, p.row.channels = some a → pair.source.declarations a.object = p.objects) ↔
      (parts.filterMap (·.row.channels)).Nodup := by
  have hone {p : DomainPart} (hp : p ∈ parts) {a : Place} (ha : p.row.channels = some a) : p.objects.length = 1 := by
    obtain ⟨d, -, hd⟩ := exists_of_mem_right h.domains hp
    exact hd.object.length_eq_one ha
  rw [nodup_filterMap_iff]
  refine forall₄_congr fun p hp a ha => ?_
  rw [h.objects p hp a ha]
  constructor
  · intro hobjects
    have hmembers : ∀ q ∈ parts.filter (·.row.channels = some a), q.objects.length = 1 := fun q hq =>
      hone (List.mem_of_mem_filter hq) (of_decide_eq_true (List.mem_filter.1 hq).2)
    calc (parts.filter (·.row.channels = some a)).length
        = ((parts.filter (·.row.channels = some a)).flatMap (·.objects)).length := by
          rw [List.length_flatMap, List.map_congr_left hmembers, List.map_const', List.sum_replicate_nat, Nat.mul_one]
      _ = p.objects.length := by rw [hobjects]
      _ = 1 := hone hp ha
  · intro hlength
    obtain ⟨q, hq⟩ := List.length_eq_one_iff.1 hlength
    have hpq : p ∈ [q] := hq ▸ List.mem_filter.2 ⟨hp, decide_eq_true ha⟩
    rw [hq, List.flatMap_singleton, List.mem_singleton.1 hpq]

/-- Domains of different names have different addresses. -/
theorem nodup_addresses (h : x.Lays pair parts) (hnames : (x.domains.map (·.name)).Nodup) :
    (parts.filterMap (·.row.channels)).Nodup := by
  have hkeys : x.domains.map (·.name) = parts.map (·.row.name) :=
    map_eq_of_forall₂ h.domains fun d p hp => hp.name.symm
  rw [hkeys, List.Nodup, List.pairwise_map] at hnames
  refine List.pairwise_filterMap.2 (hnames.imp_of_mem fun {p q} hp hq hne a ha b hb hsame => hne ?_)
  obtain ⟨d, -, hd⟩ := exists_of_mem_right h.domains hp
  obtain ⟨e, -, he⟩ := exists_of_mem_right h.domains hq
  rw [hd.name, he.name]
  exact (hd.object.isName ha).name_eq (hsame ▸ he.object.isName hb)

end Lays

/-- **The pair of a variant is complete up to domains of one name, or there is a record that cannot be.** The generation
fails just if an entry of a domain does not fit its parameters, and the error tells one that does not. If it succeeds,
the table has a row for every domain in order, with the number of its visible channels, and with the address of its
object, which is declared with the records of all its entries. The header has the number of every row under the name of
the domain; the name stands for this number alone just if no two domains share their name up to capitals. The object of
every row is the only one of its name just if no two rows share their address, as in domains of different names. -/
theorem channel_layout (x : HalcCode) (content : Json) :
    ((∃ e, (x.generate (.ofContent content)).result = .error e) ↔
      ∃ d ∈ x.domains, ∃ r ∈ x.entries d, r.Misfits d) ∧
    (∀ e, (x.generate (.ofContent content)).result = .error e →
      ∃ d ∈ x.domains, ∃ r ∈ x.entries d, r.Refuses d e) ∧
    ∀ pair, (x.generate (.ofContent content)).result = .ok pair → ∃ parts, x.Lays pair parts ∧
      ((∀ p ∈ parts, pair.header.meanings (x.channelsDefine p.row.name) = [.number p.row.channelCount]) ↔
        (x.domains.map fun d => upper d.name).Nodup) ∧
      ((∀ p ∈ parts, ∀ a, p.row.channels = some a → pair.source.declarations a.object = p.objects) ↔
        (parts.filterMap (·.row.channels)).Nodup) ∧
      ((x.domains.map (·.name)).Nodup → (parts.filterMap (·.row.channels)).Nodup) := by
  have hdecides := x.decides_generate (.ofContent content)
  refine ⟨?_, fun e he => (hdecides.refuses e he).2, fun pair hpair => ?_⟩
  · rw [hdecides.exists_error_iff]
    simp only [Entry.misfits_iff, not_forall, exists_prop]
  · obtain ⟨parts, hlays⟩ := exists_lays hpair
    exact ⟨parts, hlays, hlays.numbers_known_iff, hlays.declared_once_iff, hlays.nodup_addresses⟩

/-- The safe part of a crane: a supply with values of its own, lamps that the variant has not, a brake, two valves. -/
def craneCode : HalcCode := hoistCode ⟨.twoLevelsWithDropping, [
  ⟨"Supply", [⟨"Voltage", .u16⟩], [.u16 24], []⟩, { outputs [lamp] with name := "Lamps" }, outputs [brake],
  ⟨"Spare", [], [], []⟩, ⟨"Valves", [], [], [⟨"Lift", "", true, 7, []⟩, ⟨"Swing", "", true, 8, []⟩]⟩]⟩ .safe

theorem channel_layout_craneCode :
    (∃ pair parts, (craneCode.generate (.ofContent craneCode.content)).result = .ok pair ∧ craneCode.Lays pair parts ∧
      parts.map (·.row.channelCount) = [0, 0, 1, 2] ∧
      (∀ p ∈ parts, pair.header.meanings (craneCode.channelsDefine p.row.name) = [.number p.row.channelCount]) ∧
      ∀ p ∈ parts, ∀ a, p.row.channels = some a → pair.source.declarations a.object = p.objects) ∧
    ∃ e, ((hoistCode (hoist [horn, brake]) .nonSafe).generate (.ofContent .null)).result = .error e := by
  constructor
  · obtain ⟨pair, hpair⟩ : ∃ pair, (craneCode.generate (.ofContent craneCode.content)).result = .ok pair :=
      exists_eq_ok (by decide +kernel)
    obtain ⟨parts, hlays, hnumbers, hobjects, haddresses⟩ := (channel_layout craneCode craneCode.content).2.2 pair hpair
    exact ⟨pair, parts, hpair, hlays, (map_eq_of_forall₂ hlays.domains fun d p hp => hp.count.symm).symm,
      hnumbers.2 (by decide +kernel), hobjects.2 (haddresses (by decide +kernel))⟩
  · refine (channel_layout (hoistCode (hoist [horn, brake]) .nonSafe) .null).1.2 ?_
    have hfilter : horn.entry.Misfits (outputs [horn, brake]) :=
      .inr ⟨⟨"Filter", .u8⟩, .u16 0, .head _, .inl (by decide)⟩
    exact ⟨outputs [horn, brake], .head _, horn.entry, by decide, hfilter⟩

/-- Valves of a crane in three domains, whose names differ in capitals or not at all. -/
def valvesCode : HalcCode := hoistCode ⟨.twoLevelsWithDropping, [
  ⟨"Valves", [], [], [⟨"Lift", "", true, 7, []⟩]⟩,
  ⟨"VALVES", [], [], [⟨"Swing", "", true, 8, []⟩, ⟨"Slew", "", true, 9, []⟩]⟩,
  ⟨"Valves", [], [], [⟨"Tilt", "", true, 10, []⟩]⟩]⟩ .safe

/-- The objects of the first and of the last domain. -/
def valvesLines : List String := [
  "static const T_halc_config_safe_Valves_Channel mt_halc_config_safe_Valves_Channel = \x7b 7UL \x7d; /* Lift */",
  "static const T_halc_config_safe_Valves_Channel mt_halc_config_safe_Valves_Channel = \x7b 10UL \x7d; /* Tilt */"]

/-- The number of channels of each domain is defined as one, as two and again as one, and the first and the last domain
have different objects of one name. -/
theorem names_shared_valves : ∃ pair parts,
    (valvesCode.generate (.ofContent valvesCode.content)).result = .ok pair ∧ valvesCode.Lays pair parts ∧
    parts.map (·.row.channelCount) = [1, 2, 1] ∧
    (∀ p ∈ parts, pair.header.meanings (valvesCode.channelsDefine p.row.name) = [.number 1, .number 2, .number 1]) ∧
    (pair.source.declarations "mt_halc_config_safe_Valves_Channel").flatMap Item.lines = valvesLines := by
  obtain ⟨pair, hpair, hlines⟩ := exists_eq_ok_of_any
    (x := (valvesCode.generate (.ofContent valvesCode.content)).result) (p := fun pair : Pair =>
      (pair.source.declarations "mt_halc_config_safe_Valves_Channel").flatMap Item.lines = valvesLines)
    (by decide +kernel)
  obtain ⟨parts, hlays⟩ := exists_lays hpair
  have hcounts : parts.map (·.row.channelCount) = [1, 2, 1] :=
    (map_eq_of_forall₂ hlays.domains fun d p hp => hp.count.symm).symm
  have hupper : ∀ p ∈ parts, upper p.row.name = "VALVES" := by
    intro p hp
    obtain ⟨d, hd, hdomain⟩ := exists_of_mem_right hlays.domains hp
    have hnames : ∀ d ∈ valvesCode.domains, upper d.name = "VALVES" := by decide +kernel
    rw [hdomain.name, hnames d hd]
  refine ⟨pair, parts, hpair, hlays, hcounts, fun p hp => ?_, hlines⟩
  have hall : parts.filter (fun q => upper q.row.name = upper p.row.name) = parts :=
    List.filter_eq_self.2 fun q hq => decide_eq_true ((hupper q hq).trans (hupper p hp).symm)
  calc pair.header.meanings (valvesCode.channelsDefine p.row.name)
      = parts.map (.number ·.row.channelCount) := by rw [hlays.numbers p hp, hall]
    _ = (parts.map (·.row.channelCount)).map .number := by rw [List.map_map]; rfl
    _ = [.number 1, .number 2, .number 1] := by rw [hcounts]; rfl

end HalcCode

end BusNode
