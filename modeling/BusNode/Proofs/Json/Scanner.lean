import BusNode.Json.Parser
import BusNode.Proofs.Json.Numeral
import BusNode.Proofs.Json.Text
/-!
# Scanning text part by part

* `Token.Reads` — a text that is scanned to tokens, whatever was scanned before it;
* `Token.Breaks` — a text that goes on with no character of a word or a number.

A text is built from its end: a bracket, a string, a word or a number before a text that is scanned is scanned. A word
or a number needs a text after it that breaks it off.
-/

namespace BusNode.Token

/-- The text is scanned to the tokens, whatever comes before it. -/
def Reads (cs : List Char) (ts : List Token) : Prop :=
  ∀ before, (cs.foldlM advance? ⟨before, .between⟩).bind finish? = some (before.reverse ++ ts)

/-- Neither a word nor a number goes on with the text. -/
def Breaks (cs : List Char) : Prop := ∀ c ∈ cs.head?, c.isAlpha = false ∧ isNumberChar c = false

theorem breaks_nil : Breaks [] := fun _ hc => nomatch hc

theorem breaks_cons {c : Char} (cs : List Char) (h : c.isAlpha = false ∧ isNumberChar c = false) :
    Breaks (c :: cs) := by
  rintro _ ⟨⟩
  exact h

theorem scan_eq_of_reads {cs : List Char} {ts : List Token} (h : Reads cs ts) : scan cs = some ts := h []

theorem reads_nil : Reads [] [] := fun before => congrArg some (List.append_nil before.reverse).symm

/-! ## Characters that stand alone -/

theorem reads_punctuation {c : Char} {t : Token} {cs : List Char} {ts : List Token}
    (hc : ∀ before, start? before c = some ⟨t :: before, .between⟩) (h : Reads cs ts) : Reads (c :: cs) (t :: ts) := by
  intro before
  have := h (t :: before)
  rw [List.reverse_cons, List.append_assoc] at this
  rw [List.foldlM_cons]
  show ((start? before c).bind _).bind _ = _
  rw [hc before]
  exact this

/-! ## Blanks -/

theorem reads_blank {c : Char} {cs : List Char} {ts : List Token} (hc : isBlank c = true) (h : Reads cs ts) :
    Reads (c :: cs) ts := by
  intro before
  rw [List.foldlM_cons]
  show ((start? before c).bind _).bind _ = _
  rw [start?, if_pos hc]
  exact h before

theorem reads_blanks {w cs : List Char} {ts : List Token} (hw : ∀ c ∈ w, isBlank c = true) (h : Reads cs ts) :
    Reads (w ++ cs) ts := by
  induction w with
  | nil => exact h
  | cons c w ih =>
    exact reads_blank (hw c List.mem_cons_self) (ih fun d hd => hw d (List.mem_cons_of_mem c hd))

/-! ## Strings -/

/-- Characters that a mode keeps are kept in order. -/
theorem foldlM_keep {mode : List Char → Mode} {keeps : Char → Prop} {ts : List Token}
    (hstep : ∀ acc c, keeps c → advance? ⟨ts, mode acc⟩ c = some ⟨ts, mode (c :: acc)⟩) (acc : List Char)
    {w : List Char} (hw : ∀ c ∈ w, keeps c) :
    w.foldlM advance? ⟨ts, mode acc⟩ = some ⟨ts, mode (w.reverse ++ acc)⟩ := by
  induction w generalizing acc with
  | nil => rfl
  | cons c w ih =>
    rw [List.foldlM_cons, hstep acc c (hw c List.mem_cons_self)]
    refine (ih (c :: acc) fun d hd => hw d (List.mem_cons_of_mem c hd)).trans ?_
    rw [List.reverse_cons, List.append_assoc]
    rfl

theorem foldlM_inside (ts : List Token) (acc : List Char) {w : List Char} (hw : ∀ c ∈ w, c ≠ '"' ∧ c ≠ '\\') :
    w.foldlM advance? ⟨ts, .string acc⟩ = some ⟨ts, .string (w.reverse ++ acc)⟩ := by
  refine foldlM_keep (fun acc c hc => ?_) acc hw
  simp only [advance?, if_neg hc.1, if_neg hc.2]

theorem hexDigits_inside (n : Nat) : ∀ c ∈ hexDigits 4 n, c ≠ '"' ∧ c ≠ '\\' := by
  have hdigit : ∀ d < 16, d.digitChar ≠ '"' ∧ d.digitChar ≠ '\\' := by decide
  have hlt (m : Nat) : m % 16 < 16 := Nat.mod_lt m (by decide)
  intro c hc
  rw [Text.hexDigits_four] at hc
  simp only [List.mem_cons, List.not_mem_nil, or_false] at hc
  rcases hc with rfl | rfl | rfl | rfl <;> exact hdigit _ (hlt _)

/-- An encoded character is read as a part of its string. -/
theorem foldlM_encodeChar (ts : List Token) (acc : List Char) (c : Char) :
    (Text.encodeChar c).foldlM advance? ⟨ts, .string acc⟩ =
      some ⟨ts, .string ((Text.encodeChar c).reverse ++ acc)⟩ := by
  unfold Text.encodeChar
  iterate 7
    split
    · rfl
  split
  · show (hexDigits 4 c.toNat).foldlM advance? ⟨ts, .string ('u' :: '\\' :: acc)⟩ = _
    rw [foldlM_inside ts _ (hexDigits_inside c.toNat), List.reverse_append, List.append_assoc]
    rfl
  · rename_i hquote hslash _ _ _ _ _ _
    exact foldlM_inside ts acc fun d hd => (List.mem_singleton.1 hd).symm ▸ ⟨hquote, hslash⟩

theorem foldlM_encode (ts : List Token) (acc cs : List Char) :
    (Text.encode cs).foldlM advance? ⟨ts, .string acc⟩ = some ⟨ts, .string ((Text.encode cs).reverse ++ acc)⟩ := by
  induction cs generalizing acc with
  | nil => rfl
  | cons c cs ih =>
    show (Text.encodeChar c ++ Text.encode cs).foldlM advance? _ =
      some ⟨ts, .string ((Text.encodeChar c ++ Text.encode cs).reverse ++ acc)⟩
    rw [List.foldlM_append, foldlM_encodeChar]
    show (Text.encode cs).foldlM advance? _ = _
    rw [ih, List.reverse_append, List.append_assoc]

theorem reads_quote (s : String) {cs : List Char} {ts : List Token} (h : Reads cs ts) :
    Reads (Text.quote s ++ cs) (.string (Text.encode s.toList) :: ts) := by
  intro before
  have := h (.string (Text.encode s.toList) :: before)
  rw [List.reverse_cons, List.append_assoc] at this
  show ((Text.encode s.toList ++ ['"'] ++ cs).foldlM advance? ⟨before, .string []⟩).bind _ = _
  rw [List.append_assoc, List.foldlM_append, foldlM_encode]
  show (cs.foldlM advance? ⟨.string ((Text.encode s.toList).reverse ++ []).reverse :: before, .between⟩).bind _ = _
  rw [List.append_nil, List.reverse_reverse]
  exact this

/-! ## Words and numbers -/

/-- What is complete but for its end is completed by a text that breaks it off. -/
theorem foldlM_of_breaks {s : Scanner} (done : List Token) {cs : List Char} (hs : finish? s = some done.reverse)
    (hstep : ∀ c, c.isAlpha = false → isNumberChar c = false → advance? s c = start? done c) (h : Breaks cs) :
    (cs.foldlM advance? s).bind finish? = (cs.foldlM advance? ⟨done, .between⟩).bind finish? := by
  cases cs with
  | nil => exact hs
  | cons c cs =>
    obtain ⟨halpha, hnumber⟩ := h c rfl
    rw [List.foldlM_cons, List.foldlM_cons, hstep c halpha hnumber]
    rfl

/-- A word that is read from its first character to its last. -/
theorem reads_word {w cs : List Char} {t : Token} {ts : List Token} (ht : word? w = some t)
    (hw : ∀ before, w.foldlM advance? ⟨before, .between⟩ = some ⟨before, .word w.reverse⟩) (hb : Breaks cs)
    (h : Reads cs ts) : Reads (w ++ cs) (t :: ts) := by
  intro before
  have := h (t :: before)
  rw [List.reverse_cons, List.append_assoc] at this
  rw [List.foldlM_append, hw]
  refine (foldlM_of_breaks (t :: before) ?_ (fun c halpha _ => ?_) hb).trans this
  · show (word? w.reverse.reverse).map _ = _
    rw [List.reverse_reverse, ht]
    rfl
  · show (if c.isAlpha then _ else (word? w.reverse.reverse).bind _) = _
    rw [halpha, List.reverse_reverse, ht]
    rfl

theorem foldlM_number (ts : List Token) (acc : List Char) {w : List Char} (hw : ∀ c ∈ w, isNumberChar c = true) :
    w.foldlM advance? ⟨ts, .number acc⟩ = some ⟨ts, .number (w.reverse ++ acc)⟩ := by
  refine foldlM_keep (fun acc c hc => ?_) acc hw
  exact if_pos hc

theorem isNumberChar_of_isDigit {c : Char} (h : c.isDigit = true) : isNumberChar c = true := by
  simp [isNumberChar, h]

theorem isNumberChar_of_mem_chars {n : Numeral} (h : n.IsSpelt) (plus : Bool) :
    ∀ c ∈ n.chars plus, isNumberChar c = true := by
  intro c hc
  unfold Numeral.chars at hc
  rw [List.mem_append, List.mem_append, List.mem_append] at hc
  rcases hc with ((hc | hc) | hc) | hc
  · split at hc
    · rw [List.mem_singleton.1 hc]
      decide
    · cases hc
  · exact isNumberChar_of_isDigit (h.whole c hc)
  · split at hc
    · cases hc
    · rcases List.mem_cons.1 hc with rfl | hc
      · decide
      · exact isNumberChar_of_isDigit (h.fraction c hc)
  · cases hexp : n.exponent with
    | none =>
      rw [hexp] at hc
      cases hc
    | some e =>
      rw [hexp, Numeral.exponentChars] at hc
      rcases List.mem_cons.1 hc with rfl | hc
      · decide
      · rcases List.mem_append.1 hc with hc | hc
        · split at hc
          · rw [List.mem_singleton.1 hc]
            decide
          · split at hc
            · rw [List.mem_singleton.1 hc]
              decide
            · cases hc
        · exact isNumberChar_of_isDigit ((h.exponent e hexp).2 c hc)

/-- A number starts with its minus or with a digit. -/
theorem exists_chars_eq_cons {n : Numeral} (h : n.IsSpelt) (plus : Bool) :
    ∃ c cs, n.chars plus = c :: cs ∧ (c.isDigit = true ∨ c = '-') := by
  unfold Numeral.chars
  cases n.negative with
  | true => exact ⟨'-', _, rfl, .inr rfl⟩
  | false =>
    have hcanonical := h.canonical
    have hwhole := h.whole
    cases hw : n.whole with
    | nil =>
      rw [hw] at hcanonical
      cases hcanonical
    | cons c w =>
      rw [hw] at hwhole
      exact ⟨c, _, rfl, .inl (hwhole c List.mem_cons_self)⟩

theorem start?_number (before : List Token) {c : Char} (hc : c.isDigit = true ∨ c = '-') :
    start? before c = some ⟨before, .number [c]⟩ := by
  rcases hc with hc | rfl
  · have hne {d : Char} (hd : d.isDigit = false) : c ≠ d := by
      rintro rfl
      rw [hc] at hd
      cases hd
    have hblank : isBlank c = false := by
      simp [isBlank, hne (d := ' ') (by decide), hne (d := '\t') (by decide), hne (d := '\n') (by decide),
        hne (d := '\r') (by decide)]
    simp [start?, hblank, hne (d := '"') (by decide), hc]
  · rfl

theorem reads_number {n : Numeral} (hn : n.IsSpelt) (plus : Bool) {cs : List Char} {ts : List Token} (hb : Breaks cs)
    (h : Reads cs ts) : Reads (n.chars plus ++ cs) (.number (n.chars plus) :: ts) := by
  intro before
  have := h (.number (n.chars plus) :: before)
  rw [List.reverse_cons, List.append_assoc] at this
  have hnumber : number? (n.chars plus) = some (.number (n.chars plus)) := by
    rw [number?, Numeral.parse?_chars hn]
    rfl
  have hall := isNumberChar_of_mem_chars hn plus
  obtain ⟨c, w, hw, hc⟩ := exists_chars_eq_cons hn plus
  have hread : (n.chars plus).foldlM advance? ⟨before, .between⟩ = some ⟨before, .number (n.chars plus).reverse⟩ := by
    rw [hw] at hall ⊢
    rw [List.foldlM_cons]
    show (start? before c).bind _ = _
    rw [start?_number before hc]
    refine (foldlM_number before [c] fun d hd => hall d (List.mem_cons_of_mem c hd)).trans ?_
    rw [List.reverse_cons]
  rw [List.foldlM_append, hread]
  refine (foldlM_of_breaks (.number (n.chars plus) :: before) ?_ (fun c _ hc => ?_) hb).trans this
  · show (number? (n.chars plus).reverse.reverse).map _ = _
    rw [List.reverse_reverse, hnumber]
    rfl
  · show (if isNumberChar c then _ else (number? (n.chars plus).reverse.reverse).bind _) = _
    rw [hc, List.reverse_reverse, hnumber]
    rfl

end BusNode.Token
