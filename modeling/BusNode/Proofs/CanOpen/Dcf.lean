import BusNode.Proofs.CanOpen.Startup
/-!
# Concise configurations read back

The lines of a configuration are read to byte literals, and the bytes to writes.

* `code` — a line up to its comment; `byteItems?` — the byte literals of a text, and which of them have a comma;
* `Dcf.decode?` — the writes that bytes stand for, none of the bytes left;
* `Dcf.items_lines` — the literals of the lines are the bytes of the configuration, all but the last with a comma;
* `Dcf.decode?_bytes` — the bytes stand for the writes that they were made of;
* `Dcf.concise_configuration_read_back` — both together, for any configuration and for the arrays of a manager.
-/

namespace BusNode.CanOpen

/-! ## Byte literals -/

/-- A line up to its comment. -/
def code : List Char → List Char
  | [] => []
  | '/' :: '*' :: _ => []
  | c :: r => c :: code r

/-- The byte of two hexadecimal digits. -/
def hexPair? (high low : Char) : Option UInt8 := do
  let h ← hexValue? high
  let l ← hexValue? low
  return UInt8.ofNat (16 * h + l)

/-- The byte literals of a text, each with whether a comma follows it; else there are only blanks between them. -/
def byteItems? : List Char → Option (List (UInt8 × Bool))
  | [] => some []
  | ' ' :: r => byteItems? r
  | '0' :: 'x' :: high :: low :: 'U' :: c :: r =>
    if c = ',' ∨ c = ' ' then do
      let b ← hexPair? high low
      return (b, c = ',') :: (← byteItems? r)
    else none
  | _ => none

/-- The byte literals of lines from left to right, comments left out. -/
def items? (lines : List String) : Option (List (UInt8 × Bool)) :=
  (lines.mapM fun l => byteItems? (code l.toList)).map List.flatten

/-- Bytes with commas between them, and after them unless they are the last. -/
def separated (isLast : Bool) : List UInt8 → List (UInt8 × Bool)
  | [] => []
  | [b] => [(b, !isLast)]
  | b :: bs => (b, true) :: separated isLast bs

theorem separated_append (isLast : Bool) (as : List UInt8) {bs : List UInt8} (h : bs ≠ []) :
    separated false as ++ separated isLast bs = separated isLast (as ++ bs) := by
  induction as with
  | nil => rfl
  | cons a as ih =>
    cases as with
    | nil =>
      obtain ⟨b, bs, rfl⟩ := List.exists_cons_of_ne_nil h
      rfl
    | cons a' as => exact congrArg ((a, true) :: ·) ih

theorem map_fst_separated (isLast : Bool) (bs : List UInt8) : (separated isLast bs).map Prod.fst = bs := by
  induction bs with
  | nil => rfl
  | cons b bs ih =>
    cases bs with
    | nil => rfl
    | cons b' bs => exact congrArg (b :: ·) ih

theorem map_snd_separated (isLast : Bool) {bs : List UInt8} (h : bs ≠ []) :
    (separated isLast bs).map Prod.snd = List.replicate (bs.length - 1) true ++ [!isLast] := by
  induction bs with
  | nil => exact absurd rfl h
  | cons b bs ih =>
    cases bs with
    | nil => rfl
    | cons b' bs => exact congrArg (true :: ·) (ih (List.cons_ne_nil b' bs))

/-! ## Lines -/

theorem hexValue?_upper : ∀ d < 16, hexValue? (Nat.digitChar d).toUpper = some d := by decide

/-- No digit opens a comment. -/
theorem upper_digitChar_ne : ∀ d < 16, (Nat.digitChar d).toUpper ≠ '/' := by decide

theorem toList_hexByte (b : UInt8) : (Literal.hexByte b).toList =
    ['0', 'x', (Nat.digitChar (b.toNat / 16 % 16)).toUpper, (Nat.digitChar (b.toNat % 16)).toUpper, 'U'] := by
  unfold Literal.hexByte hexUpper
  simp [hexDigits, String.toList_append, toString]

theorem hexPair?_digits (b : UInt8) :
    hexPair? (Nat.digitChar (b.toNat / 16 % 16)).toUpper (Nat.digitChar (b.toNat % 16)).toUpper = some b := by
  have hb : b.toNat < 256 := b.toNat_lt
  have hvalue : 16 * (b.toNat / 16 % 16) + b.toNat % 16 = b.toNat := by omega
  unfold hexPair?
  rw [hexValue?_upper _ (Nat.mod_lt _ (by decide)), hexValue?_upper _ (Nat.mod_lt _ (by decide))]
  show some (UInt8.ofNat (16 * (b.toNat / 16 % 16) + b.toNat % 16)) = some b
  rw [hvalue, UInt8.ofNat_toNat]

/-- A literal, with a comma or a blank after it. -/
theorem byteItems?_hexByte (b : UInt8) {c : Char} (hc : c = ',' ∨ c = ' ') (r : List Char) :
    byteItems? ((Literal.hexByte b).toList ++ c :: r) = (byteItems? r).map ((b, decide (c = ',')) :: ·) := by
  rw [toList_hexByte]
  simp only [List.cons_append, List.nil_append, byteItems?, if_pos hc, hexPair?_digits]
  cases byteItems? r <;> rfl

theorem byteItems?_blanks (n : Nat) (r : List Char) : byteItems? (List.replicate n ' ' ++ r) = byteItems? r := by
  induction n with
  | zero => rfl
  | succ n ih => exact ih

/-- The characters of byte literals with commas between them. -/
def literals (bs : List UInt8) : List Char := [',', ' '].intercalate (bs.map fun b => (Literal.hexByte b).toList)

theorem literals_singleton (b : UInt8) : literals [b] = (Literal.hexByte b).toList := by simp [literals]

theorem literals_cons_cons (b b' : UInt8) (bs : List UInt8) :
    literals (b :: b' :: bs) = (Literal.hexByte b).toList ++ ',' :: ' ' :: literals (b' :: bs) := by
  simp [literals, List.intercalate_cons_cons]

theorem byteItems?_literals (isLast : Bool) {bs : List UInt8} (h : bs ≠ []) (r : List Char) :
    byteItems? (literals bs ++ (if isLast then ' ' else ',') :: r) =
      (byteItems? r).map (separated isLast bs ++ ·) := by
  induction bs with
  | nil => exact absurd rfl h
  | cons b bs ih =>
    cases bs with
    | nil =>
      rw [literals_singleton, byteItems?_hexByte b (by cases isLast <;> simp)]
      cases isLast <;> rfl
    | cons b' bs =>
      rw [literals_cons_cons, List.append_assoc, List.cons_append, byteItems?_hexByte b (.inl rfl)]
      show (byteItems? (literals (b' :: bs) ++ _)).map _ = _
      rw [ih (List.cons_ne_nil b' bs), Option.map_map]
      rfl

theorem not_mem_literals (bs : List UInt8) : '/' ∉ literals bs := by
  have hbyte (b : UInt8) : '/' ∉ (Literal.hexByte b).toList := by
    have hhigh := upper_digitChar_ne _ (Nat.mod_lt (b.toNat / 16) (by decide))
    have hlow := upper_digitChar_ne _ (Nat.mod_lt b.toNat (by decide))
    rw [toList_hexByte]
    simp [hhigh.symm, hlow.symm]
  induction bs with
  | nil => simp [literals]
  | cons b bs ih =>
    cases bs with
    | nil => simpa [literals_singleton] using hbyte b
    | cons b' bs =>
      rw [literals_cons_cons]
      simp [hbyte b, ih]

theorem code_append_comment {s : List Char} (h : '/' ∉ s) (r : List Char) : code (s ++ '/' :: '*' :: r) = s := by
  induction s with
  | nil => rfl
  | cons c s ih =>
    obtain ⟨hc, hs⟩ : '/' ≠ c ∧ '/' ∉ s := by simpa using h
    rw [List.cons_append, code, ih hs]
    exact fun _ hslash _ => hc hslash.symm

/-- The literals of a line are its bytes. -/
theorem byteItems?_line (isLast : Bool) {bs : List UInt8} (h : bs ≠ []) (padding : Nat) (comment : String) :
    byteItems? (code (Dcf.line isLast bs padding comment).toList) = some (separated isLast bs) := by
  have hline : ∃ r, (Dcf.line isLast bs padding comment).toList =
      (literals bs ++ (if isLast then ' ' else ',') :: List.replicate (padding + 1) ' ') ++ '/' :: '*' :: r := by
    refine ⟨' ' :: comment.toList ++ " */".toList, ?_⟩
    have hliterals : (", ".intercalate (bs.map Literal.hexByte)).toList = literals bs := by
      rw [String.toList_intercalate, List.map_map]
      rfl
    unfold Dcf.line
    simp only [String.toList_append, hliterals]
    cases isLast <;> simp [toString, List.replicate_succ']
  obtain ⟨r, hr⟩ := hline
  have hslash : '/' ∉ literals bs ++ (if isLast then ' ' else ',') :: List.replicate (padding + 1) ' ' := by
    have := not_mem_literals bs
    cases isLast <;> simp [this]
  rw [hr, code_append_comment hslash, byteItems?_literals isLast h]
  have hblanks := byteItems?_blanks (padding + 1) []
  rw [List.append_nil] at hblanks
  rw [hblanks]
  simp [byteItems?]

/-! ## Bytes -/

/-- A number of `k` bytes at the start of some, and the bytes after it. -/
def takeNumber? (k : Nat) (bs : List UInt8) : Option (Nat × List UInt8) :=
  if bs.length < k then none else some (ofLittleEndian (bs.take k), bs.drop k)

theorem takeNumber?_littleEndian {k n : Nat} (h : n < 256 ^ k) (r : List UInt8) :
    takeNumber? k (littleEndian k n ++ r) = some (n, r) := by
  have hlength := length_littleEndian k n
  unfold takeNumber?
  rw [if_neg (by simp [hlength]), List.take_left' hlength, List.drop_left' hlength, ofLittleEndian_littleEndian h]

/-- What a write does, without its comment. -/
def Write.content (w : Write) : UInt16 × UInt8 × List UInt8 := (w.index, w.sub, w.payload)

/-- The write at the start of some bytes, and the bytes after it. -/
def takeWrite? (bs : List UInt8) : Option ((UInt16 × UInt8 × List UInt8) × List UInt8) := do
  let (index, bs) ← takeNumber? 2 bs
  let (sub, bs) ← takeNumber? 1 bs
  let (length, bs) ← takeNumber? 4 bs
  if bs.length < length then none
  else some ((UInt16.ofNat index, UInt8.ofNat sub, bs.take length), bs.drop length)

theorem takeWrite?_bytes {w : Write} (h : w.payload.length < 2 ^ 32) (r : List UInt8) :
    takeWrite? (w.bytes ++ r) = some (w.content, r) := by
  have hsub : [w.sub] = littleEndian 1 w.sub.toNat := by simp [littleEndian]
  have hbytes : w.bytes ++ r = littleEndian 2 w.index.toNat ++ (littleEndian 1 w.sub.toNat ++
      (littleEndian 4 w.payload.length ++ (w.payload ++ r))) := by
    rw [← hsub]
    simp [Write.bytes]
  unfold takeWrite?
  rw [hbytes, takeNumber?_littleEndian w.index.toNat_lt]
  simp only [Option.bind_eq_bind, Option.bind_some]
  rw [takeNumber?_littleEndian w.sub.toNat_lt]
  simp only [Option.bind_some]
  rw [takeNumber?_littleEndian h]
  simp [Write.content]

/-- So many writes at the start of some bytes, and the bytes after them. -/
def takeWrites? : Nat → List UInt8 → Option (List (UInt16 × UInt8 × List UInt8) × List UInt8)
  | 0, bs => some ([], bs)
  | n + 1, bs => do
    let (w, bs) ← takeWrite? bs
    let (ws, bs) ← takeWrites? n bs
    return (w :: ws, bs)

theorem takeWrites?_bytes {ws : List Write} (h : ∀ w ∈ ws, w.payload.length < 2 ^ 32) (r : List UInt8) :
    takeWrites? ws.length (ws.flatMap Write.bytes ++ r) = some (ws.map Write.content, r) := by
  induction ws with
  | nil => rfl
  | cons w ws ih =>
    have hw := h w List.mem_cons_self
    have hws := ih fun w' hw' => h w' (List.mem_cons_of_mem w hw')
    rw [List.flatMap_cons, List.append_assoc, List.length_cons, takeWrites?, takeWrite?_bytes hw]
    simp only [Option.bind_eq_bind, Option.bind_some]
    rw [hws]
    rfl

namespace Dcf

/-- The writes that bytes stand for; no byte may be left. -/
def decode? (bs : List UInt8) : Option (List (UInt16 × UInt8 × List UInt8)) := do
  let (n, bs) ← takeNumber? 4 bs
  let (ws, bs) ← takeWrites? n bs
  if bs.isEmpty then some ws else none

variable {d : Dcf}

/-- The numbers of the format have their place in four bytes. -/
structure Fits (d : Dcf) : Prop where
  count : d.writes.length < 2 ^ 32
  payload : ∀ w ∈ d.writes, w.payload.length < 2 ^ 32

/-- **The bytes stand for the writes.** -/
theorem decode?_bytes (h : d.Fits) : decode? d.bytes = some (d.writes.map Write.content) := by
  have hwrites := takeWrites?_bytes h.payload []
  rw [List.append_nil] at hwrites
  unfold decode? bytes
  rw [takeNumber?_littleEndian h.count]
  simp only [Option.bind_eq_bind, Option.bind_some]
  rw [hwrites]
  rfl

theorem content_eq_of_bytes {d' : Dcf} (h : d.Fits) (h' : d'.Fits) (hbytes : d.bytes = d'.bytes) :
    d.writes.map Write.content = d'.writes.map Write.content := by
  have hdecoded := decode?_bytes h
  rw [hbytes, decode?_bytes h'] at hdecoded
  exact (Option.some.inj hdecoded).symm

theorem length_bytes (d : Dcf) : d.bytes.length = d.size := by
  have hwrite (w : Write) : w.bytes.length = w.encodedLength := by
    simp [Write.bytes, Write.encodedLength]
    omega
  simp [bytes, size, List.length_flatMap, hwrite]

/-! ## Lines and bytes -/

theorem bytes_ne_nil (w : Write) : w.bytes ≠ [] := by simp [Write.bytes, littleEndian]

theorem items?_cons {l : String} {ls : List String} {as bs : List (UInt8 × Bool)}
    (hl : byteItems? (code l.toList) = some as) (hls : items? ls = some bs) : items? (l :: ls) = some (as ++ bs) := by
  obtain ⟨rest, hrest, rfl⟩ := Option.map_eq_some_iff.1 hls
  unfold items?
  rw [List.mapM_cons, hl, hrest]
  rfl

/-- A line of any bytes and the lines of the writes after it. -/
theorem items?_line_writeLines {bs : List UInt8} (h : bs ≠ []) (padding : Nat) (comment : String) (ws : List Write) :
    items? (line ws.isEmpty bs padding comment :: writeLines ws) =
      some (separated true (bs ++ ws.flatMap Write.bytes)) := by
  induction ws generalizing bs padding comment with
  | nil =>
    have hline := byteItems?_line true h padding comment
    have hnil : items? (writeLines []) = some [] := rfl
    rw [List.isEmpty_nil, items?_cons hline hnil]
    simp
  | cons w ws ih =>
    have hline := byteItems?_line false h padding comment
    have hrest : (w :: ws).flatMap Write.bytes ≠ [] := by simp [bytes_ne_nil]
    rw [List.isEmpty_cons, writeLines, items?_cons hline (ih (bytes_ne_nil w) w.padding w.note),
      ← List.flatMap_cons, separated_append true bs hrest]

/-- **The literals of the lines are the bytes**, and all but the last have a comma. -/
theorem items_lines (d : Dcf) : items? d.lines = some (separated true d.bytes) := by
  have hcount : littleEndian 4 d.writes.length ≠ [] := by simp [littleEndian]
  exact items?_line_writeLines hcount 0 "number of entries" d.writes

/-! ## Main statement -/

/-- The array of a device, in the source of a manager. -/
def IsArrayOf (d : Dcf) (pair : Pair) (name : String) (length : Nat) : Prop :=
  ∃ o, Item.listing o d.lines ∈ pair.source.items ∧ o.name = name ∧ o.length = some (.number length)

theorem isArrayOf_of_generate {x : ManagerCode} {id : Identifier} {pair : Pair} {p : ManagerPlan}
    (h : (x.generate id).result = .ok pair) (hp : x.plan = .ok p) {e : DevicePlan} (he : e ∈ p.devices) :
    e.dcf.IsArrayOf pair (x.dcfName e.device) e.dcf.size := by
  obtain ⟨p', f, hp', hf, rfl⟩ := ManagerCode.generate_eq_ok h
  obtain rfl : p = p' := Except.ok.inj (hp.symm.trans hp')
  refine ⟨.table "uint8" (x.dcfName e.device) e.dcf.size, ?_, rfl, rfl⟩
  exact ManagerCode.dcfItems_subset_source hf he (by simp [ManagerCode.dcfItems])

/-- **A concise configuration is read back from its lines**: their literals are as many as its size says, each but the
last with a comma, and they are the number of the writes and the bytes of each; the bytes stand for the writes, and no
other configuration has them. The array of a device is declared with the number of its literals. -/
theorem concise_configuration_read_back (d : Dcf) :
    ∃ items, items? d.lines = some items ∧
      items.length = d.size ∧
      items.map (·.2) = List.replicate (d.size - 1) true ++ [false] ∧
      items.map (·.1) = littleEndian 4 d.writes.length ++ d.writes.flatMap Write.bytes ∧
      (d.Fits → decode? (items.map (·.1)) = some (d.writes.map Write.content)) ∧
      (d.Fits → ∀ d' : Dcf, d'.Fits → (items? d'.lines).map (List.map (·.1)) = some (items.map (·.1)) →
        d'.writes.map Write.content = d.writes.map Write.content) ∧
      ∀ (x : ManagerCode) (id : Identifier) (pair : Pair) (p : ManagerPlan), (x.generate id).result = .ok pair →
        x.plan = .ok p → ∀ e ∈ p.devices, e.dcf = d → d.IsArrayOf pair (x.dcfName e.device) items.length := by
  have hbytes : d.bytes ≠ [] := by simp [bytes, littleEndian]
  have hfst := map_fst_separated true d.bytes
  have hlength : (separated true d.bytes).length = d.size := by
    rw [← List.length_map, hfst, length_bytes]
  refine ⟨separated true d.bytes, items_lines d, hlength, ?_, hfst, ?_, ?_, ?_⟩
  · have hsnd := map_snd_separated true hbytes
    rwa [length_bytes] at hsnd
  · intro hfits
    rw [hfst]
    exact decode?_bytes hfits
  · intro hfits d' hfits' hsame
    rw [items_lines d', Option.map_some, map_fst_separated, hfst] at hsame
    exact content_eq_of_bytes hfits' hfits (Option.some.inj hsame)
  · intro x id pair p hpair hp e he hdcf
    rw [hlength, ← hdcf]
    exact isArrayOf_of_generate hpair hp he

/-- A sensor that takes two writes. -/
def sensor : Device := { Device.new ⟨2, 0⟩ "Sensor" 9 with
  dictionary := (Dictionary.empty.insert 0x1005 0 .readWrite).insert 0x1017 0 .writeOnly
  heartbeatProducing := true
  heartbeatProducerTime := 0x1F4 }

def sensorWrites : Dcf :=
  ⟨[.long 0x1005 0 0x80 "SYNC COB-ID", .short 0x1017 0 0x1F4 "heartbeat producer time"]⟩

def sensorManager : ManagerCode where
  application := "Logger"
  interface := 1
  manager := { Manager.new 1 with devices := [sensor] }
  container := ⟨true, [], []⟩
  datapool := { Datapool.new "Com" .com (some 0) with lists := List.replicate 4 (ElementList.new "Signals") }
  version := 2

theorem concise_configuration_read_back_sensor :
    sensorWrites.Fits ∧ ∃ items, items? sensorWrites.lines = some items ∧ items.length = 24 ∧
      decode? (items.map (·.1)) = some [(0x1005, 0, [0x80, 0, 0, 0]), (0x1017, 0, [0xF4, 1])] ∧
      ∃ pair, (sensorManager.generate ⟨"00000000"⟩).result = .ok pair ∧
        sensorWrites.IsArrayOf pair "mau8_canopen_mgr_can2_Sensor_ConciseData" items.length := by
  have hfits : sensorWrites.Fits := ⟨by decide, by decide⟩
  have hplan : sensorManager.plan = .ok ⟨[⟨sensor, sensorWrites⟩], [], []⟩ := by decide +kernel
  obtain ⟨pair, hpair⟩ : ∃ pair, (sensorManager.generate ⟨"00000000"⟩).result = .ok pair :=
    exists_eq_ok (by decide +kernel)
  obtain ⟨items, hitems, hlength, -, -, hdecode, -, harray⟩ := concise_configuration_read_back sensorWrites
  have hname : sensorManager.dcfName sensor = "mau8_canopen_mgr_can2_Sensor_ConciseData" := by decide +kernel
  have harray := harray sensorManager ⟨"00000000"⟩ pair _ hpair hplan _ (List.mem_singleton_self _) rfl
  rw [hname] at harray
  exact ⟨hfits, items, hitems, hlength, hdecode hfits, pair, hpair, harray⟩

end Dcf

end BusNode.CanOpen
