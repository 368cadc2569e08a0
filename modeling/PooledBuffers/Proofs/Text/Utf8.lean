import PooledBuffers.Text.Utf8

/-!
# Reading UTF-8 undoes writing it

* `Utf8.decodeFrom_char` — the bytes of one character, with whatever comes behind them;
* `Utf8.decode_encode` — the bytes of a text.
-/

namespace PooledBuffers.Utf8

variable {position : Nat} {done : List Char} {rest : List UInt8}

/-! ## One byte -/

theorem toNat_byte {n : Nat} (h : n < 256) : (UInt8.ofNat n).toNat = n :=
  UInt8.toNat_ofNat_of_lt' h

theorem decodeFrom_ascii {n : Nat} (h : n < 0x80) :
    decodeFrom position none done (UInt8.ofNat n :: rest) =
      decodeFrom (position + 1) none (Char.ofNat n :: done) rest := by
  have value := toNat_byte (by omega : n < 256)
  have low : UInt8.ofNat n < 0x80 := by
    rw [UInt8.lt_iff_toNat_lt, value]
    exact h
  rw [decodeFrom, if_pos low, value]

theorem decodeFrom_opened {lead : UInt8} {sequence : Sequence} (high : 0x80 ≤ lead.toNat)
    (opened : Sequence.opened? position lead = some sequence) :
    decodeFrom position none done (lead :: rest) =
      decodeFrom (position + 1) (some sequence) done rest := by
  have above : ¬ lead < 0x80 := by
    rw [UInt8.lt_iff_toNat_lt]
    exact Nat.not_lt.2 high
  rw [decodeFrom, if_neg above]
  simp only [opened]

section Sequence

variable {sequence : Sequence} {n : Nat} (byte : 0x80 + n < 256) (low : sequence.low ≤ 0x80 + n)
  (high : 0x80 + n ≤ sequence.high)

include byte low high

theorem extended_eq : sequence.extended? (UInt8.ofNat (0x80 + n)) =
    some ⟨sequence.start, sequence.seen + 1, sequence.needed - 1, 0x80, 0xBF,
      sequence.payload * 64 + n⟩ := by
  unfold Sequence.extended?
  rw [toNat_byte byte]
  simp only [low, high, and_self, ↓reduceIte, Nat.add_sub_cancel_left]

/-- A byte in range, with more to come. -/
theorem decodeFrom_extended (more : 2 ≤ sequence.needed) :
    decodeFrom position (some sequence) done (UInt8.ofNat (0x80 + n) :: rest) =
      decodeFrom (position + 1)
        (some ⟨sequence.start, sequence.seen + 1, sequence.needed - 1, 0x80, 0xBF,
          sequence.payload * 64 + n⟩) done rest := by
  rw [decodeFrom]
  simp only [extended_eq byte low high]
  rw [if_neg (by omega)]

/-- The last byte of a sequence ends its character. -/
theorem decodeFrom_last (last : sequence.needed = 1) :
    decodeFrom position (some sequence) done (UInt8.ofNat (0x80 + n) :: rest) =
      decodeFrom (position + 1) none (Char.ofNat (sequence.payload * 64 + n) :: done) rest := by
  rw [decodeFrom]
  simp only [extended_eq byte low high]
  rw [if_pos (by omega)]

end Sequence

/-! ## One character -/

-- In each of the lengths the lead byte opens a sequence whose payload is the top of the number, and
-- each byte behind it adds six bits. Only the second byte can be out of range.

theorem decodeFrom_two {v : Nat} (least : 0x7F < v) (most : v ≤ 0x7FF) :
    decodeFrom position none done
        (UInt8.ofNat (v / 64 % 0x20 + 0xC0) :: UInt8.ofNat (v % 0x40 + 0x80) :: rest) =
      decodeFrom (position + 2) none (Char.ofNat v :: done) rest := by
  have lead : v / 64 % 0x20 + 0xC0 = 0xC0 + v / 64 := by omega
  have second : v % 64 + 0x80 = 0x80 + v % 64 := Nat.add_comm _ _
  have value := toNat_byte (by omega : 0xC0 + v / 64 < 256)
  have opened : Sequence.opened? position (UInt8.ofNat (0xC0 + v / 64)) =
      some ⟨position, 1, 1, 0x80, 0xBF, v / 64⟩ := by
    unfold Sequence.opened?
    rw [value, if_neg (by omega), if_pos (by omega), Nat.add_sub_cancel_left]
  have joined : v / 64 * 64 + v % 64 = v := by omega
  rw [lead, second, decodeFrom_opened (by omega) opened,
    decodeFrom_last (by omega) (by simp only; omega) (by simp only; omega) rfl]
  simp only [joined]

theorem decodeFrom_three {v : Nat} (least : 0x7FF < v) (most : v ≤ 0xFFFF)
    (scalar : v < 0xD800 ∨ 0xDFFF < v) :
    decodeFrom position none done
        (UInt8.ofNat (v / 4096 % 0x10 + 0xE0) :: UInt8.ofNat (v / 64 % 0x40 + 0x80) ::
          UInt8.ofNat (v % 0x40 + 0x80) :: rest) =
      decodeFrom (position + 3) none (Char.ofNat v :: done) rest := by
  have lead : v / 4096 % 0x10 + 0xE0 = 0xE0 + v / 4096 := by omega
  have second : v / 64 % 64 + 0x80 = 0x80 + v / 64 % 64 := Nat.add_comm _ _
  have third : v % 64 + 0x80 = 0x80 + v % 64 := Nat.add_comm _ _
  have value := toNat_byte (by omega : 0xE0 + v / 4096 < 256)
  have opened : Sequence.opened? position (UInt8.ofNat (0xE0 + v / 4096)) =
      some ⟨position, 1, 2, if v / 4096 = 0 then 0xA0 else 0x80,
        if v / 4096 = 13 then 0x9F else 0xBF, v / 4096⟩ := by
    unfold Sequence.opened?
    rw [value, if_neg (by omega), if_neg (by omega), if_pos (by omega), Nat.add_sub_cancel_left]
    congr 2 <;> congr 1 <;> simp only [eq_iff_iff] <;> omega
  have joined : (v / 4096 * 64 + v / 64 % 64) * 64 + v % 64 = v := by omega
  rw [lead, second, third, decodeFrom_opened (by omega) opened,
    decodeFrom_extended (by omega) (by simp only; split <;> omega)
      (by simp only; split <;> omega) (Nat.le_refl 2),
    decodeFrom_last (by omega) (by simp only; omega) (by simp only; omega) rfl]
  simp only [joined]

theorem decodeFrom_four {v : Nat} (least : 0xFFFF < v) (most : v < 0x110000) :
    decodeFrom position none done
        (UInt8.ofNat (v / 262144 % 0x08 + 0xF0) :: UInt8.ofNat (v / 4096 % 0x40 + 0x80) ::
          UInt8.ofNat (v / 64 % 0x40 + 0x80) :: UInt8.ofNat (v % 0x40 + 0x80) :: rest) =
      decodeFrom (position + 4) none (Char.ofNat v :: done) rest := by
  have lead : v / 262144 % 0x08 + 0xF0 = 0xF0 + v / 262144 := by omega
  have second : v / 4096 % 64 + 0x80 = 0x80 + v / 4096 % 64 := Nat.add_comm _ _
  have third : v / 64 % 64 + 0x80 = 0x80 + v / 64 % 64 := Nat.add_comm _ _
  have fourth : v % 64 + 0x80 = 0x80 + v % 64 := Nat.add_comm _ _
  have value := toNat_byte (by omega : 0xF0 + v / 262144 < 256)
  have opened : Sequence.opened? position (UInt8.ofNat (0xF0 + v / 262144)) =
      some ⟨position, 1, 3, if v / 262144 = 0 then 0x90 else 0x80,
        if v / 262144 = 4 then 0x8F else 0xBF, v / 262144⟩ := by
    unfold Sequence.opened?
    rw [value, if_neg (by omega), if_neg (by omega), if_neg (by omega), if_pos (by omega),
      Nat.add_sub_cancel_left]
    congr 2 <;> congr 1 <;> simp only [eq_iff_iff] <;> omega
  have joined : ((v / 262144 * 64 + v / 4096 % 64) * 64 + v / 64 % 64) * 64 + v % 64 = v := by
    omega
  rw [lead, second, third, fourth, decodeFrom_opened (by omega) opened,
    decodeFrom_extended (by omega) (by simp only; split <;> omega)
      (by simp only; split <;> omega) (Nat.le_succ 2),
    decodeFrom_extended (by omega) (by simp only; omega) (by simp only; omega) (Nat.le_refl 2),
    decodeFrom_last (by omega) (by simp only; omega) (by simp only; omega) rfl]
  simp only [joined]

/-- A character's number is below the last code point and no surrogate. -/
theorem scalar_bounds (c : Char) : c.toNat < 0xD800 ∨ (0xDFFF < c.toNat ∧ c.toNat < 0x110000) :=
  c.valid

theorem decodeFrom_char (position : Nat) (done : List Char) (c : Char) (rest : List UInt8) :
    decodeFrom position none done (String.utf8EncodeChar c ++ rest) =
      decodeFrom (position + (String.utf8EncodeChar c).length) none (c :: done) rest := by
  have bounds := scalar_bounds c
  have same : Char.ofNat c.toNat = c := Char.ofNat_toNat c
  unfold String.utf8EncodeChar
  simp only [Char.toNat_val]
  -- Three bounds decide on the number of bytes, and a reader learns them from the first byte.
  by_cases one : c.toNat ≤ 0x7F
  · rw [if_pos one]
    refine (decodeFrom_ascii (by omega : c.toNat < 0x80)).trans ?_
    rw [same]
    rfl
  by_cases two : c.toNat ≤ 0x7FF
  · rw [if_neg one, if_pos two]
    refine (decodeFrom_two (Nat.not_le.1 one) two).trans ?_
    rw [same]
    rfl
  by_cases three : c.toNat ≤ 0xFFFF
  · rw [if_neg one, if_neg two, if_pos three]
    refine (decodeFrom_three (Nat.not_le.1 two) three (by omega)).trans ?_
    rw [same]
    rfl
  · rw [if_neg one, if_neg two, if_neg three]
    refine (decodeFrom_four (Nat.not_le.1 three) (by omega)).trans ?_
    rw [same]
    rfl

/-! ## Texts -/

theorem decodeFrom_text (text : List Char) :
    ∀ (position : Nat) (done : List Char),
      decodeFrom position none done (text.flatMap String.utf8EncodeChar) =
        .ok (done.reverse ++ text) := by
  induction text with
  | nil =>
    intro position done
    simp [decodeFrom]
  | cons c text ih =>
    intro position done
    rw [List.flatMap_cons, decodeFrom_char, ih]
    simp

theorem decode_encode (text : String) : decode (encode text) = .ok text := by
  unfold decode encode
  rw [decodeFrom_text]
  simp [Except.map]

end PooledBuffers.Utf8
