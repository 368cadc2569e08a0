import PooledBuffers.Text.Utf16

/-!
# Reading UTF-16 undoes writing it

* `Utf16.foldl_encodeChar` — the units of one character, which leave nothing waiting;
* `Utf16.items_encode`, `Utf16.decode_encode` — the units of a text.
-/

namespace PooledBuffers.Utf16

theorem toNat_unit {n : Nat} (h : n < 0x10000) : (UInt16.ofNat n).toNat = n :=
  UInt16.toNat_ofNat_of_lt' h

theorem isHighSurrogate_iff (unit : UInt16) :
    isHighSurrogate unit = true ↔ 0xD800 ≤ unit.toNat ∧ unit.toNat < 0xDC00 := by
  simp [isHighSurrogate, UInt16.le_iff_toNat_le, UInt16.lt_iff_toNat_lt]

theorem isLowSurrogate_iff (unit : UInt16) :
    isLowSurrogate unit = true ↔ 0xDC00 ≤ unit.toNat ∧ unit.toNat < 0xE000 := by
  simp [isLowSurrogate, UInt16.le_iff_toNat_le, UInt16.lt_iff_toNat_lt]

/-! ## One character -/

theorem step_none (done : List Item) (unit : UInt16) :
    Pairing.step ⟨none, done⟩ unit = Pairing.afresh done unit := rfl

theorem afresh_scalar (done : List Item) {n : Nat}
    (scalar : n < 0xD800 ∨ (0xDFFF < n ∧ n < 0x10000)) :
    Pairing.afresh done (UInt16.ofNat n) = ⟨none, .scalar (Char.ofNat n) :: done⟩ := by
  have unit := toNat_unit (by omega : n < 0x10000)
  have high : ¬ isHighSurrogate (UInt16.ofNat n) = true := by
    rw [isHighSurrogate_iff, unit]
    omega
  have low : ¬ isLowSurrogate (UInt16.ofNat n) = true := by
    rw [isLowSurrogate_iff, unit]
    omega
  rw [Pairing.afresh, if_neg high, if_neg low, unit]

/-- Two halves, one after the other, make a character. -/
theorem step_pair (done : List Item) {first second : Nat} (high : first < 1024)
    (low : second < 1024) :
    (Pairing.step ⟨none, done⟩ (UInt16.ofNat (0xD800 + first))).step
        (UInt16.ofNat (0xDC00 + second)) =
      ⟨none, .scalar (Char.ofNat (0x10000 + first * 1024 + second)) :: done⟩ := by
  have unit := toNat_unit (by omega : 0xD800 + first < 0x10000)
  have unit' := toNat_unit (by omega : 0xDC00 + second < 0x10000)
  have opens : isHighSurrogate (UInt16.ofNat (0xD800 + first)) = true := by
    rw [isHighSurrogate_iff, unit]
    omega
  have closes : isLowSurrogate (UInt16.ofNat (0xDC00 + second)) = true := by
    rw [isLowSurrogate_iff, unit']
    omega
  have waits : Pairing.step ⟨none, done⟩ (UInt16.ofNat (0xD800 + first)) =
      ⟨some (UInt16.ofNat (0xD800 + first)), done⟩ := by
    rw [step_none, Pairing.afresh, if_pos opens]
  have joined : joinPair (UInt16.ofNat (0xD800 + first)) (UInt16.ofNat (0xDC00 + second)) =
      Char.ofNat (0x10000 + first * 1024 + second) := by
    rw [joinPair, unit, unit', Nat.add_sub_cancel_left, Nat.add_sub_cancel_left]
  rw [waits, ← joined]
  exact if_pos closes

/-- A character takes one unit that is no surrogate, or a first and a second half. -/
theorem foldl_encodeChar (done : List Item) (c : Char) :
    (encodeChar c).foldl Pairing.step ⟨none, done⟩ = ⟨none, .scalar c :: done⟩ := by
  have valid : c.toNat < 0xD800 ∨ (0xDFFF < c.toNat ∧ c.toNat < 0x110000) := c.valid
  have same : Char.ofNat c.toNat = c := Char.ofNat_toNat c
  unfold encodeChar
  generalize c.toNat = v at valid same ⊢
  by_cases short : v < 0x10000
  · have scalar : v < 0xD800 ∨ (0xDFFF < v ∧ v < 0x10000) := by omega
    rw [if_pos short, List.foldl_cons, List.foldl_nil, step_none, afresh_scalar done scalar, same]
  · -- The offset from 0x10000 has twenty bits, ten for each half.
    obtain ⟨offset, rfl⟩ := Nat.exists_eq_add_of_le (Nat.le_of_not_lt short)
    have high : offset / 1024 < 1024 := by omega
    have low : offset % 1024 < 1024 := by omega
    have joined : 0x10000 + offset / 1024 * 1024 + offset % 1024 = 0x10000 + offset := by omega
    rw [if_neg short, Nat.add_sub_cancel_left]
    simp only [List.foldl_cons, List.foldl_nil]
    rw [step_pair done high low, joined, same]

/-! ## Texts -/

theorem foldl_encode (text : List Char) :
    ∀ done : List Item, (text.flatMap encodeChar).foldl Pairing.step ⟨none, done⟩ =
      ⟨none, (text.map Item.scalar).reverse ++ done⟩ := by
  induction text with
  | nil =>
    intro done
    rfl
  | cons c text ih =>
    intro done
    rw [List.flatMap_cons, List.foldl_append, foldl_encodeChar, ih]
    simp

/-- The units of a text stand for its characters, none of them for half of one. -/
theorem items_encode (text : String) : items (encode text) = text.toList.map Item.scalar := by
  have folded := foldl_encode text.toList []
  unfold items encode
  rw [folded]
  simp [Pairing.finish]

theorem decode_encode (text : String) : decode (encode text) = .ok text := by
  have paired : firstUnpaired? (text.toList.map Item.scalar) = none := by
    simp [firstUnpaired?, List.findSome?_eq_none_iff]
  unfold decode decodeLossy
  rw [items_encode, paired]
  simp [Item.lossy, Function.comp_def]

end PooledBuffers.Utf16
