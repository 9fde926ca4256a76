import BusNode.Proofs.Can.Fit
/-!
# Words of signals

The word of a descriptor, read by the places of its bits.

* `Descriptor.ofSignal_eq_ok`, `Descriptor.ofSignal_eq_error` — which descriptor a signal has, or which of its bounds
  is told;
* `Signal.IsPackedIn` — the fields of a signal stand in a word, each in its bits;
* `Signal.word_packs_signal` — they do in the word of its descriptor, so the words of two signals are equal just if
  these fields are.
-/

namespace BusNode.Can

/-! ## Descriptors of signals -/

variable {s t : Signal} {d : Descriptor} {fault : DescriptorError} {w : UInt32}

/-- A signal breaks one bound first. -/
theorem DescriptorError.IsFirst.eq {fault' : DescriptorError} (h : IsFirst s fault) (h' : IsFirst s fault') :
    fault = fault' := by
  cases h <;> cases h' <;> first | rfl | omega

namespace Descriptor

/-- The descriptor of a signal, if it fits one. -/
def fields (s : Signal) : Descriptor :=
  ⟨s.bitStart, s.bitLength, s.byteOrder = .motorola, s.elementIndex.toUInt16⟩

theorem ofSignal_eq_ok : ofSignal s = .ok d ↔ s.IsBounded ∧ d = fields s := by
  constructor
  · intro h
    refine ⟨(decides_ofSignal s).holds d h, ?_⟩
    unfold ofSignal at h
    split at h
    · cases h
    split at h
    · cases h
    split at h
    · cases h
    · exact (Except.ok.inj h).symm
  · rintro ⟨hs, rfl⟩
    obtain ⟨hstart, hlength, helement⟩ := hs
    have hzero : s.bitLength ≠ 0 := by
      intro h
      simp [h] at hlength
    unfold ofSignal maxStartBit maxLength
    rw [if_neg (by omega), if_neg (by simp only [hzero, false_or]; omega), if_neg (by omega)]
    rfl

theorem ofSignal_eq_error : ofSignal s = .error fault ↔ DescriptorError.IsFirst s fault := by
  constructor
  · intro h
    exact ((decides_ofSignal s).refuses fault h).2
  · intro h
    cases hs : ofSignal s with
    | ok d =>
      obtain ⟨hstart, hlength, helement⟩ := (decides_ofSignal s).holds d hs
      cases h <;> omega
    | error fault' =>
      have hfirst := ((decides_ofSignal s).refuses fault' hs).2
      rw [hfirst.eq h]

end Descriptor

/-! ## Bits of a word -/

/-- So many bits of a word, from a place on. -/
def bitField (w : UInt32) (first count : Nat) : Nat := (w.toBitVec.extractLsb' first count).toNat

theorem bitField_eq (w : UInt32) (first count : Nat) : bitField w first count = w.toNat / 2 ^ first % 2 ^ count := by
  unfold bitField
  rw [BitVec.extractLsb'_toNat, Nat.shiftRight_eq_div_pow]
  rfl

namespace Descriptor

/-- The fields of a descriptor do not run into one another, and none of them past the word. -/
theorem toNat_word (d : Descriptor) : d.word.toNat =
    d.startBit.toNat % 2 ^ 9 + (d.bitLength.toNat - 1) % 2 ^ 6 * 2 ^ 9 + d.isMotorola.toNat * 2 ^ 15 +
      d.elementIndex.toNat * 2 ^ 16 := by
  have hbool : d.isMotorola.toNat ≤ 1 := Bool.toNat_le d.isMotorola
  have helement : d.elementIndex.toNat < 2 ^ 16 := d.elementIndex.toNat_lt
  unfold word
  rw [UInt32.toNat_ofNat', Nat.mod_eq_of_lt (by omega)]

section

variable (d : Descriptor)

theorem bitField_startBit : bitField d.word 0 9 = d.startBit.toNat % 2 ^ 9 := by
  rw [bitField_eq, toNat_word]
  omega

theorem bitField_length : bitField d.word 9 6 = (d.bitLength.toNat - 1) % 2 ^ 6 := by
  have hbool : d.isMotorola.toNat ≤ 1 := Bool.toNat_le d.isMotorola
  rw [bitField_eq, toNat_word]
  omega

theorem bitField_order : bitField d.word 15 1 = d.isMotorola.toNat := by
  have hbool : d.isMotorola.toNat ≤ 1 := Bool.toNat_le d.isMotorola
  rw [bitField_eq, toNat_word]
  omega

theorem bitField_elementIndex : bitField d.word 16 16 = d.elementIndex.toNat := by
  have hbool : d.isMotorola.toNat ≤ 1 := Bool.toNat_le d.isMotorola
  have helement : d.elementIndex.toNat < 2 ^ 16 := d.elementIndex.toNat_lt
  rw [bitField_eq, toNat_word]
  omega

end

/-- The contents of a word, read from its bits. -/
theorem ofWord_eq (w : UInt32) : ofWord w = ⟨UInt16.ofNat (bitField w 0 9), UInt16.ofNat (bitField w 9 6 + 1),
    bitField w 15 1 = 1, UInt16.ofNat (bitField w 16 16)⟩ := by
  have hw : w.toNat < 2 ^ 32 := w.toNat_lt
  have helement : w.toNat / 2 ^ 16 % 2 ^ 16 = w.toNat / 2 ^ 16 := by omega
  simp only [bitField_eq, helement, Nat.pow_zero, Nat.div_one, Nat.pow_one]
  rfl

end Descriptor

/-! ## Words of signals -/

namespace Signal

/-- The fields of the signal stand in the word: the start in bits 0 to 8, the length less one in bits 9 to 14, the order
in bit 15 and the element in bits 16 to 31. -/
structure IsPackedIn (s : Signal) (w : UInt32) : Prop where
  startBit : bitField w 0 9 = s.bitStart.toNat
  length : bitField w 9 6 + 1 = s.bitLength.toNat
  order : bitField w 15 1 = 1 ↔ s.byteOrder = .motorola
  elementIndex : bitField w 16 16 = s.elementIndex.toNat

theorem isPackedIn_word (hs : s.IsBounded) : s.IsPackedIn (Descriptor.fields s).word := by
  obtain ⟨hstart, hlength, helement⟩ := hs
  constructor
  · rw [Descriptor.bitField_startBit]
    show s.bitStart.toNat % 2 ^ 9 = s.bitStart.toNat
    omega
  · rw [Descriptor.bitField_length]
    show (s.bitLength.toNat - 1) % 2 ^ 6 + 1 = s.bitLength.toNat
    omega
  · rw [Descriptor.bitField_order]
    show (decide (s.byteOrder = .motorola)).toNat = 1 ↔ s.byteOrder = .motorola
    rw [Bool.toNat_eq_one, decide_eq_true_eq]
  · rw [Descriptor.bitField_elementIndex]
    show s.elementIndex.toUInt16.toNat = s.elementIndex.toNat
    rw [UInt32.toNat_toUInt16, Nat.mod_eq_of_lt helement]

/-- The descriptor of a signal is read back from a word that has the fields of the signal. -/
theorem IsPackedIn.ofWord_eq (hs : s.IsPackedIn w) : Descriptor.ofWord w = Descriptor.fields s := by
  have horder : decide (bitField w 15 1 = 1) = decide (s.byteOrder = .motorola) := decide_eq_decide.2 hs.order
  rw [Descriptor.ofWord_eq, hs.startBit, hs.length, horder, hs.elementIndex, UInt16.ofNat_toNat, UInt16.ofNat_toNat]
  rfl

/-- The word of a signal tells its fields. -/
theorem IsPackedIn.agree (hs : s.IsPackedIn w) (ht : t.IsPackedIn w) : s.bitStart = t.bitStart ∧
    s.bitLength = t.bitLength ∧ s.byteOrder = t.byteOrder ∧ s.elementIndex = t.elementIndex := by
  have hstart : s.bitStart.toNat = t.bitStart.toNat := hs.startBit.symm.trans ht.startBit
  have hlength : s.bitLength.toNat = t.bitLength.toNat := hs.length.symm.trans ht.length
  have horder : s.byteOrder = .motorola ↔ t.byteOrder = .motorola := hs.order.symm.trans ht.order
  have helement : s.elementIndex.toNat = t.elementIndex.toNat := hs.elementIndex.symm.trans ht.elementIndex
  refine ⟨UInt16.toNat_inj.1 hstart, UInt16.toNat_inj.1 hlength, ?_, UInt32.toNat_inj.1 helement⟩
  cases hi : s.byteOrder <;> cases hj : t.byteOrder <;> simp [hi, hj] at horder ⊢

/-- **Words are a faithful packing of signals.** A signal has a descriptor just if its fields are within their bounds,
and otherwise the first bound that it breaks is told. The word of the descriptor has the fields of the signal in their
bits, the descriptor is read back from it, and two signals have one word just if these fields are the same. -/
theorem word_packs_signal (s : Signal) :
    ((∃ d, Descriptor.ofSignal s = .ok d) ↔
      s.bitStart.toNat ≤ 511 ∧ (1 ≤ s.bitLength.toNat ∧ s.bitLength.toNat ≤ 64) ∧ s.elementIndex.toNat ≤ 65535) ∧
    (∀ fault, Descriptor.ofSignal s = .error fault ↔ DescriptorError.IsFirst s fault) ∧
    ∀ d, Descriptor.ofSignal s = .ok d → s.IsPackedIn d.word ∧ Descriptor.ofWord d.word = d ∧
      ∀ t d', Descriptor.ofSignal t = .ok d' → (d.word = d'.word ↔ s.bitStart = t.bitStart ∧
        s.bitLength = t.bitLength ∧ s.byteOrder = t.byteOrder ∧ s.elementIndex = t.elementIndex) := by
  refine ⟨?_, fun fault => Descriptor.ofSignal_eq_error, ?_⟩
  · rw [(Descriptor.decides_ofSignal s).exists_ok_iff]
    constructor
    · rintro ⟨hstart, hlength, helement⟩
      exact ⟨hstart, hlength, by omega⟩
    · rintro ⟨hstart, hlength, helement⟩
      exact ⟨hstart, hlength, by omega⟩
  · intro d hd
    obtain ⟨hs, rfl⟩ := Descriptor.ofSignal_eq_ok.1 hd
    have hpacked := isPackedIn_word hs
    refine ⟨hpacked, hpacked.ofWord_eq, fun t d' hd' => ?_⟩
    obtain ⟨ht, rfl⟩ := Descriptor.ofSignal_eq_ok.1 hd'
    constructor
    · intro hwords
      exact hpacked.agree (hwords ▸ isPackedIn_word ht)
    · rintro ⟨hstart, hlength, horder, helement⟩
      unfold Descriptor.fields
      rw [hstart, hlength, horder, helement]

/-- The last place of a payload of 64 bytes, as long as a signal can be, of the last element. -/
def utmost : Signal := { Signal.new 65535 511 64 with byteOrder := .motorola }

/-- All bits of its word are set, and no other order has that word; the next place, length and element are refused. -/
theorem word_packs_signal_utmost :
    (∃ d, Descriptor.ofSignal utmost = .ok d ∧ d.word = 0xFFFFFFFF ∧ utmost.IsPackedIn d.word ∧
      ∀ d', Descriptor.ofSignal { utmost with byteOrder := .intel } = .ok d' → d.word ≠ d'.word) ∧
    Descriptor.ofSignal { utmost with bitStart := 512, bitLength := 65 } = .error (.startBit 512) ∧
    Descriptor.ofSignal { utmost with bitLength := 65, elementIndex := 65536 } = .error (.length 65) ∧
    Descriptor.ofSignal { utmost with elementIndex := 65536 } = .error (.elementIndex 65536) := by
  obtain ⟨haccept, -, hpacked⟩ := word_packs_signal utmost
  obtain ⟨d, hd⟩ := haccept.2 (by decide)
  obtain ⟨hfields, -, hwords⟩ := hpacked d hd
  have hrefuse (s : Signal) (fault : DescriptorError) (h : DescriptorError.IsFirst s fault) :
      Descriptor.ofSignal s = .error fault := ((word_packs_signal s).2.1 fault).2 h
  refine ⟨⟨d, hd, ?_, hfields, fun d' hd' h => ?_⟩, hrefuse _ _ (.startBit (by decide)),
    hrefuse _ _ (.length (by decide) (by decide)), hrefuse _ _ (.elementIndex (by decide) (by decide) (by decide))⟩
  · obtain rfl := (Descriptor.ofSignal_eq_ok.1 hd).2
    decide
  · have horder := ((hwords _ _ hd').1 h).2.2.1
    cases horder

end Signal

end BusNode.Can
