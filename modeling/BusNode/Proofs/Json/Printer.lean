import BusNode.Json.Printer
import BusNode.Proofs.Json.Scanner
/-!
# Written text read back

* `Json.IsPlain` — a value all of which can be read: its numbers are numbers, its strings are texts, its keys have no
  escapes;
* `Json.tokens` — the tokens of a value;
* `Json.parse?_compact`, `Json.parse?_pretty` — a plain value that is written, without blanks or in lines, is read
  back, so no two plain values are written alike (`Json.compact_injective`).
-/

namespace BusNode

/-! ## Plain values -/

/-- A key that is spelt without escapes. -/
def Key.IsPlain : Key → Prop
  | .plain s => '\\' ∉ Text.encode s.toList
  | _ => False

instance : DecidablePred Key.IsPlain
  | .plain s => inferInstanceAs (Decidable ('\\' ∉ Text.encode s.toList))
  | .escaped _ => .isFalse id
  | .unpaired => .isFalse id

namespace Json

inductive IsPlain : Json → Prop
  | null : IsPlain .null
  | bool (b : Bool) : IsPlain (.bool b)
  | number {digits : String} (h : Numeral.Spells digits) : IsPlain (.number digits)
  | string (s : String) : IsPlain (.string s)
  | array {items : List Json} (h : ∀ v ∈ items, IsPlain v) : IsPlain (.array items)
  | object {members : List (Key × Json)} (hk : ∀ m ∈ members, m.1.IsPlain) (hv : ∀ m ∈ members, IsPlain m.2) :
    IsPlain (.object members)

namespace IsPlain

theorem decimal (n : Nat) : (Json.number (BusNode.decimal n)).IsPlain := .number (Numeral.spells_decimal n)

theorem nil : (Json.array []).IsPlain := .array fun _ hv => nomatch hv

theorem cons {v : Json} {vs : List Json} (hv : v.IsPlain) (hvs : (Json.array vs).IsPlain) :
    (Json.array (v :: vs)).IsPlain := by
  cases hvs with
  | array hvs =>
    refine .array fun w hw => ?_
    rcases List.mem_cons.1 hw with rfl | hw
    · exact hv
    · exact hvs w hw

theorem empty : (Json.object []).IsPlain := .object (fun _ hm => nomatch hm) fun _ hm => nomatch hm

theorem member {k : Key} {v : Json} {ms : List (Key × Json)} (hk : k.IsPlain) (hv : v.IsPlain)
    (hms : (Json.object ms).IsPlain) : (Json.object ((k, v) :: ms)).IsPlain := by
  cases hms with
  | object hks hvs =>
    refine .object (fun m hm => ?_) fun m hm => ?_
    · rcases List.mem_cons.1 hm with rfl | hm
      · exact hk
      · exact hks m hm
    · rcases List.mem_cons.1 hm with rfl | hm
      · exact hv
      · exact hvs m hm

theorem map {α : Type} {f : α → Json} (h : ∀ a, (f a).IsPlain) (l : List α) : (Json.array (l.map f)).IsPlain := by
  refine .array fun v hv => ?_
  obtain ⟨a, -, rfl⟩ := List.mem_map.1 hv
  exact h a

end IsPlain

/-! ## Tokens -/

mutual

/-- The tokens of a value. -/
def tokens : Json → List Token
  | .null => [.null]
  | .bool b => [.bool b]
  | .number ds => [.number ds.toList]
  | .string s => [.string (Text.encode s.toList)]
  | .unpaired => [.string []]
  | .array [] => [.openBracket, .closeBracket]
  | .array (v :: vs) => .openBracket :: tokens v ++ itemTokens vs ++ [.closeBracket]
  | .object [] => [.openBrace, .closeBrace]
  | .object ((k, v) :: ms) =>
    .openBrace :: .string (Text.encode (k.text?.getD "").toList) :: .colon :: tokens v ++ memberTokens ms ++
      [.closeBrace]

/-- The tokens of items after the first one. -/
def itemTokens : List Json → List Token
  | [] => []
  | v :: vs => .comma :: tokens v ++ itemTokens vs

/-- The tokens of members after the first one. -/
def memberTokens : List (Key × Json) → List Token
  | [] => []
  | (k, v) :: ms =>
    .comma :: .string (Text.encode (k.text?.getD "").toList) :: .colon :: tokens v ++ memberTokens ms

end

/-! ## The text has the tokens -/

open Token

/-- The text of a value is scanned to its tokens, before any text that breaks it off. -/
def ReadsCompact (v : Json) : Prop :=
  ∀ {cs : List Char} {ts : List Token}, Breaks cs → Reads cs ts → Reads (v.compactChars ++ cs) (v.tokens ++ ts)

theorem breaks_items (vs : List Json) (cs : List Char) : Breaks (compactItems vs ++ ']' :: cs) := by
  cases vs with
  | nil => exact breaks_cons _ (by decide)
  | cons v vs => exact breaks_cons _ (by decide)

theorem breaks_members (ms : List (Key × Json)) (cs : List Char) : Breaks (compactMembers ms ++ '}' :: cs) := by
  cases ms with
  | nil => exact breaks_cons _ (by decide)
  | cons m ms => exact breaks_cons _ (by decide)

theorem reads_items {vs : List Json} (h : ∀ v ∈ vs, ReadsCompact v) {cs : List Char} {ts : List Token}
    (hr : Reads (']' :: cs) ts) : Reads (compactItems vs ++ ']' :: cs) (itemTokens vs ++ ts) := by
  induction vs with
  | nil => exact hr
  | cons v vs ih =>
    rw [compactItems, itemTokens, List.append_assoc, List.append_assoc]
    refine reads_punctuation (fun _ => rfl) (h v List.mem_cons_self (breaks_items vs cs) ?_)
    exact ih fun w hw => h w (List.mem_cons_of_mem v hw)

theorem reads_members {ms : List (Key × Json)} (h : ∀ m ∈ ms, ReadsCompact m.2) {cs : List Char} {ts : List Token}
    (hr : Reads ('}' :: cs) ts) : Reads (compactMembers ms ++ '}' :: cs) (memberTokens ms ++ ts) := by
  induction ms with
  | nil => exact hr
  | cons m ms ih =>
    rw [compactMembers, memberTokens]
    simp only [List.cons_append, List.append_assoc]
    refine reads_punctuation (fun _ => rfl) (reads_quote _ (reads_punctuation (fun _ => rfl) ?_))
    refine h m List.mem_cons_self (breaks_members ms cs) ?_
    exact ih fun w hw => h w (List.mem_cons_of_mem m hw)

theorem reads_compact {v : Json} (h : v.IsPlain) : ReadsCompact v := by
  induction h with
  | null => exact reads_word rfl fun _ => rfl
  | bool b =>
    cases b with
    | true => exact reads_word rfl fun _ => rfl
    | false => exact reads_word rfl fun _ => rfl
  | number h =>
    obtain ⟨n, plus, hn, hds⟩ := h
    intro cs ts hb hr
    simp only [compactChars, leaf, tokens, hds]
    exact reads_number hn plus hb hr
  | string s => exact fun _ hr => reads_quote s hr
  | @array items _ ih =>
    intro cs ts hb hr
    cases items with
    | nil => exact reads_punctuation (fun _ => rfl) (reads_punctuation (fun _ => rfl) hr)
    | cons v vs =>
      simp only [compactChars, tokens, List.cons_append, List.append_assoc]
      refine reads_punctuation (fun _ => rfl) (ih v List.mem_cons_self (breaks_items vs cs) ?_)
      refine reads_items (fun w hw => ih w (List.mem_cons_of_mem v hw)) ?_
      exact reads_punctuation (fun _ => rfl) hr
  | @object members _ _ ih =>
    intro cs ts hb hr
    cases members with
    | nil => exact reads_punctuation (fun _ => rfl) (reads_punctuation (fun _ => rfl) hr)
    | cons m ms =>
      simp only [compactChars, tokens, List.cons_append, List.append_assoc]
      refine reads_punctuation (fun _ => rfl) (reads_quote _ (reads_punctuation (fun _ => rfl) ?_))
      refine ih m List.mem_cons_self (breaks_members ms cs) ?_
      refine reads_members (fun w hw => ih w (List.mem_cons_of_mem m hw)) ?_
      exact reads_punctuation (fun _ => rfl) hr

theorem scan_compact {v : Json} (h : v.IsPlain) : scan v.compactChars = some v.tokens := by
  have := scan_eq_of_reads (reads_compact h breaks_nil reads_nil)
  rwa [List.append_nil, List.append_nil] at this

/-! ## The text in lines has the tokens -/

theorem reads_newLine (level : Nat) {cs : List Char} {ts : List Token} (h : Reads cs ts) :
    Reads (newLine level ++ cs) ts := by
  refine reads_blanks (fun c hc => ?_) h
  rcases List.mem_cons.1 hc with rfl | hc
  · rfl
  · rw [List.eq_of_mem_replicate hc]
    rfl

theorem breaks_newLine (level : Nat) (cs : List Char) : Breaks (newLine level ++ cs) := breaks_cons _ (by decide)

/-- The text of a value at any level of nesting is scanned to its tokens, before any text that breaks it off. -/
def ReadsPretty (v : Json) : Prop :=
  ∀ (level : Nat) {cs : List Char} {ts : List Token}, Breaks cs → Reads cs ts →
    Reads (v.prettyChars level ++ cs) (v.tokens ++ ts)

theorem breaks_prettyItems (level outer : Nat) (vs : List Json) (cs : List Char) :
    Breaks (prettyItems level vs ++ (newLine outer ++ cs)) := by
  cases vs with
  | nil => exact breaks_newLine outer cs
  | cons v vs => exact breaks_cons _ (by decide)

theorem breaks_prettyMembers (level outer : Nat) (ms : List (Key × Json)) (cs : List Char) :
    Breaks (prettyMembers level ms ++ (newLine outer ++ cs)) := by
  cases ms with
  | nil => exact breaks_newLine outer cs
  | cons m ms => exact breaks_cons _ (by decide)

theorem reads_prettyItems (level outer : Nat) {vs : List Json} (h : ∀ v ∈ vs, ReadsPretty v) {cs : List Char}
    {ts : List Token} (hr : Reads (newLine outer ++ cs) ts) :
    Reads (prettyItems level vs ++ (newLine outer ++ cs)) (itemTokens vs ++ ts) := by
  induction vs with
  | nil => exact hr
  | cons v vs ih =>
    rw [prettyItems, itemTokens]
    simp only [List.cons_append, List.append_assoc]
    refine reads_punctuation (fun _ => rfl) (reads_newLine level ?_)
    refine h v List.mem_cons_self level (breaks_prettyItems level outer vs cs) ?_
    exact ih fun w hw => h w (List.mem_cons_of_mem v hw)

theorem reads_prettyMembers (level outer : Nat) {ms : List (Key × Json)} (h : ∀ m ∈ ms, ReadsPretty m.2)
    {cs : List Char} {ts : List Token} (hr : Reads (newLine outer ++ cs) ts) :
    Reads (prettyMembers level ms ++ (newLine outer ++ cs)) (memberTokens ms ++ ts) := by
  induction ms with
  | nil => exact hr
  | cons m ms ih =>
    rw [prettyMembers, memberTokens]
    simp only [List.cons_append, List.append_assoc]
    refine reads_punctuation (fun _ => rfl) (reads_newLine level (reads_quote _ ?_))
    refine reads_punctuation (fun _ => rfl) (reads_blank rfl ?_)
    refine h m List.mem_cons_self level (breaks_prettyMembers level outer ms cs) ?_
    exact ih fun w hw => h w (List.mem_cons_of_mem m hw)

theorem reads_pretty {v : Json} (h : v.IsPlain) : ReadsPretty v := by
  induction h with
  | null => exact fun _ => reads_word rfl fun _ => rfl
  | bool b =>
    cases b with
    | true => exact fun _ => reads_word rfl fun _ => rfl
    | false => exact fun _ => reads_word rfl fun _ => rfl
  | number h =>
    obtain ⟨n, plus, hn, hds⟩ := h
    intro level cs ts hb hr
    simp only [prettyChars, leaf, tokens, hds]
    exact reads_number hn plus hb hr
  | string s => exact fun _ _ _ _ hr => reads_quote s hr
  | @array items _ ih =>
    intro level cs ts hb hr
    cases items with
    | nil => exact reads_punctuation (fun _ => rfl) (reads_punctuation (fun _ => rfl) hr)
    | cons v vs =>
      simp only [prettyChars, tokens, List.cons_append, List.append_assoc]
      refine reads_punctuation (fun _ => rfl) (reads_newLine _ ?_)
      refine ih v List.mem_cons_self _ (breaks_prettyItems _ level vs _) ?_
      refine reads_prettyItems _ level (fun w hw => ih w (List.mem_cons_of_mem v hw)) ?_
      exact reads_newLine level (reads_punctuation (fun _ => rfl) hr)
  | @object members _ _ ih =>
    intro level cs ts hb hr
    cases members with
    | nil => exact reads_punctuation (fun _ => rfl) (reads_punctuation (fun _ => rfl) hr)
    | cons m ms =>
      simp only [prettyChars, tokens, List.cons_append, List.append_assoc]
      refine reads_punctuation (fun _ => rfl) (reads_newLine _ (reads_quote _ ?_))
      refine reads_punctuation (fun _ => rfl) (reads_blank rfl ?_)
      refine ih m List.mem_cons_self _ (breaks_prettyMembers _ level ms _) ?_
      refine reads_prettyMembers _ level (fun w hw => ih w (List.mem_cons_of_mem m hw)) ?_
      exact reads_newLine level (reads_punctuation (fun _ => rfl) hr)

theorem scan_pretty {v : Json} (h : v.IsPlain) : scan (v.prettyChars 0) = some v.tokens := by
  have := scan_eq_of_reads (reads_pretty h 0 breaks_nil reads_nil)
  rwa [List.append_nil, List.append_nil] at this

/-! ## The tokens have the value -/

/-- The tokens of a value are read as the value, wherever it may stand. -/
def RunsTo (v : Json) : Prop :=
  ∀ (first : Bool) (outer : List Frame) (ts : List Token),
    Expect.run (.value first outer) (v.tokens ++ ts) = Expect.run (.after v outer) ts

theorem ofInside?_encode (s : String) : Json.ofInside? (Text.encode s.toList) = some (.string s) := by
  rw [Json.ofInside?, Text.decode_encode, Option.map_some, Text.ofPoints_map_toNat]
  exact congrArg (some <| Json.string ·) String.ofList_toList

theorem keyOfInside?_encode {k : Key} (h : k.IsPlain) :
    Key.ofInside? (Text.encode (k.text?.getD "").toList) = some k := by
  cases k with
  | plain s =>
    have hs : (Text.encode s.toList).contains '\\' = false := by
      rw [List.contains_eq_mem, decide_eq_false_iff_not]
      exact h
    show Key.ofInside? (Text.encode s.toList) = _
    rw [Key.ofInside?, Text.decode_encode, Option.map_some, Text.ofPoints_map_toNat]
    simp only [hs, String.ofList_toList]
    rfl
  | escaped s => exact h.elim
  | unpaired => exact h.elim

theorem run_items {vs : List Json} (h : ∀ v ∈ vs, RunsTo v) (v : Json) (done : List Json) (outer : List Frame)
    (ts : List Token) :
    Expect.run (.after v (.items done :: outer)) (itemTokens vs ++ .closeBracket :: ts) =
      Expect.run (.after (.array ((v :: done).reverse ++ vs)) outer) ts := by
  induction vs generalizing v done with
  | nil =>
    rw [List.append_nil]
    rfl
  | cons w vs ih =>
    rw [itemTokens, List.append_assoc]
    refine (h w List.mem_cons_self false (.items (v :: done) :: outer) _).trans ?_
    rw [ih (fun u hu => h u (List.mem_cons_of_mem w hu)), List.reverse_cons (a := w), List.append_assoc]
    rfl

theorem run_key {k : Key} (h : k.IsPlain) (first : Bool) (done : List (Key × Json)) (outer : List Frame)
    (ts : List Token) :
    Expect.run (.key first done outer) (.string (Text.encode (k.text?.getD "").toList) :: .colon :: ts) =
      Expect.run (.value false (.members done k :: outer)) ts := by
  have hstep : Expect.step (.key first done outer) (.string (Text.encode (k.text?.getD "").toList)) =
      some (.colon k done outer) := by
    show (Key.ofInside? _).map _ = _
    rw [keyOfInside?_encode h]
    rfl
  unfold Expect.run
  rw [List.foldlM_cons, hstep]
  rfl

theorem run_members {ms : List (Key × Json)} (hk : ∀ m ∈ ms, m.1.IsPlain) (h : ∀ m ∈ ms, RunsTo m.2) (v : Json)
    (k : Key) (done : List (Key × Json)) (outer : List Frame) (ts : List Token) :
    Expect.run (.after v (.members done k :: outer)) (memberTokens ms ++ .closeBrace :: ts) =
      Expect.run (.after (.object (((k, v) :: done).reverse ++ ms)) outer) ts := by
  induction ms generalizing v k done with
  | nil =>
    rw [List.append_nil]
    rfl
  | cons m ms ih =>
    obtain ⟨l, w⟩ := m
    rw [memberTokens]
    simp only [List.cons_append, List.append_assoc]
    refine (run_key (hk (l, w) List.mem_cons_self) false ((k, v) :: done) outer _).trans ?_
    refine (h (l, w) List.mem_cons_self false _ _).trans ?_
    rw [ih (fun u hu => hk u (List.mem_cons_of_mem _ hu)) (fun u hu => h u (List.mem_cons_of_mem _ hu)),
      List.reverse_cons (a := (l, w)), List.append_assoc]
    rfl

theorem run_tokens {v : Json} (h : v.IsPlain) : RunsTo v := by
  induction h with
  | null => exact fun _ _ _ => rfl
  | bool b => exact fun _ _ _ => rfl
  | @number digits _ =>
    intro first outer ts
    have hds : String.ofList digits.toList = digits := String.ofList_toList
    show Expect.run (.after (.number (String.ofList digits.toList)) outer) ts = _
    rw [hds]
  | string s =>
    intro first outer ts
    have hstep : Expect.step (.value first outer) (.string (Text.encode s.toList)) =
        some (.after (.string s) outer) := by
      show (Json.ofInside? _).map _ = _
      rw [ofInside?_encode]
      rfl
    show (Expect.step _ (.string _)).bind _ = _
    rw [hstep]
    rfl
  | @array items _ ih =>
    intro first outer ts
    cases items with
    | nil => rfl
    | cons v vs =>
      rw [tokens, List.append_assoc, List.append_assoc]
      refine (ih v List.mem_cons_self true (.items [] :: outer) _).trans ?_
      exact run_items (fun w hw => ih w (List.mem_cons_of_mem v hw)) v [] outer ts
  | @object members hk _ ih =>
    intro first outer ts
    cases members with
    | nil => rfl
    | cons m ms =>
      obtain ⟨k, v⟩ := m
      rw [tokens]
      simp only [List.cons_append, List.append_assoc]
      refine (run_key (hk (k, v) List.mem_cons_self) true [] outer _).trans ?_
      refine (ih (k, v) List.mem_cons_self false _ _).trans ?_
      have hkeys : ∀ m ∈ ms, m.1.IsPlain := fun m hm => hk m (List.mem_cons_of_mem _ hm)
      exact run_members hkeys (fun m hm => ih m (List.mem_cons_of_mem _ hm)) v k [] outer ts

theorem ofTokens?_tokens {v : Json} (h : v.IsPlain) : Json.ofTokens? v.tokens = some v := by
  have := run_tokens h false [] []
  rw [List.append_nil] at this
  rw [Json.ofTokens?, this]
  rfl

/-- **A plain value that is written is read back.** -/
theorem parse?_compact {v : Json} (h : v.IsPlain) : Json.parse? v.compact = some v := by
  rw [Json.parse?, compact, String.toList_ofList, scan_compact h]
  exact ofTokens?_tokens h

/-- **A plain value that is written in lines is read back.** -/
theorem parse?_pretty {v : Json} (h : v.IsPlain) : Json.parse? v.pretty = some v := by
  rw [Json.parse?, pretty, String.toList_ofList, scan_pretty h]
  exact ofTokens?_tokens h

theorem compact_injective {v w : Json} (hv : v.IsPlain) (hw : w.IsPlain) (h : v.compact = w.compact) : v = w := by
  have := parse?_compact hv
  rw [h, parse?_compact hw] at this
  exact (Option.some.inj this).symm

end Json

end BusNode
