/-!
# Numbers as bytes

A natural number as a fixed count of bytes, least or most significant first, and back. Every
fixed-width value is laid out with one of these two pairs of functions.

Main statements: `toNat_ofNat` (reading undoes writing, up to the width), `ofNat_toNat` (writing
undoes reading), and for the other order `ofNat_eq_reverse` and `toNat_reverse` (it is the first
one backwards).
-/

namespace PooledBuffers.LittleEndian

/-- The lowest `width` bytes of a number, least significant first. -/
def ofNat : Nat → Nat → List UInt8
  | 0, _ => []
  | width + 1, n => UInt8.ofNat n :: ofNat width (n / 256)

/-- The number with the given bytes, least significant first. -/
def toNat : List UInt8 → Nat
  | [] => 0
  | byte :: rest => byte.toNat + 256 * toNat rest

@[simp] theorem length_ofNat (width n : Nat) : (ofNat width n).length = width := by
  induction width generalizing n with
  | zero => rfl
  | succ width ih => simp [ofNat, ih]

theorem toNat_ofNat (width n : Nat) : toNat (ofNat width n) = n % Nat.pow 256 width := by
  induction width generalizing n with
  | zero => simp [ofNat, toNat, Nat.mod_one]
  | succ width ih =>
    have low : (UInt8.ofNat n).toNat = n % 256 := by simp
    have step : Nat.pow 256 (width + 1) = 256 * Nat.pow 256 width := Nat.mul_comm _ _
    rw [ofNat, toNat, ih, low, step, Nat.mod_mul]

theorem ofNat_toNat (bytes : List UInt8) : ofNat bytes.length (toNat bytes) = bytes := by
  induction bytes with
  | nil => rfl
  | cons byte rest ih =>
    have bound : byte.toNat < 256 := byte.toNat_lt
    have low : UInt8.ofNat (byte.toNat + 256 * toNat rest) = byte := by
      apply UInt8.toNat.inj
      simp
    have high : (byte.toNat + 256 * toNat rest) / 256 = toNat rest := by omega
    simp [ofNat, toNat, low, high, ih]

theorem toNat_lt (bytes : List UInt8) : toNat bytes < Nat.pow 256 bytes.length := by
  induction bytes with
  | nil => simp [toNat]
  | cons byte rest ih =>
    have bound : byte.toNat < 256 := byte.toNat_lt
    have step : Nat.pow 256 (rest.length + 1) = 256 * Nat.pow 256 rest.length := Nat.mul_comm _ _
    rw [toNat, List.length_cons, step]
    omega

end PooledBuffers.LittleEndian

namespace PooledBuffers.BigEndian

/-- The lowest `width` bytes of a number, most significant first. -/
def ofNat : Nat → Nat → List UInt8
  | 0, _ => []
  | width + 1, n => UInt8.ofNat (n / Nat.pow 256 width) :: ofNat width n

/-- The number with the given bytes, most significant first. -/
def toNat (bytes : List UInt8) : Nat :=
  bytes.foldl (fun n byte => byte.toNat + 256 * n) 0

/-- The last byte of a number is its lowest one. -/
theorem ofNat_succ (width n : Nat) :
    ofNat (width + 1) n = ofNat width (n / 256) ++ [UInt8.ofNat n] := by
  induction width with
  | zero => simp [ofNat]
  | succ width ih =>
    have step : Nat.pow 256 (width + 1) = 256 * Nat.pow 256 width := Nat.mul_comm _ _
    rw [ofNat, ih, ofNat, step, Nat.div_div_eq_div_mul, List.cons_append]

theorem ofNat_eq_reverse (width n : Nat) :
    ofNat width n = (LittleEndian.ofNat width n).reverse := by
  induction width generalizing n with
  | zero => rfl
  | succ width ih => rw [ofNat_succ, ih, LittleEndian.ofNat, List.reverse_cons]

theorem toNat_concat (bytes : List UInt8) (last : UInt8) :
    toNat (bytes ++ [last]) = last.toNat + 256 * toNat bytes := by
  simp [toNat]

theorem toNat_reverse (bytes : List UInt8) : toNat bytes.reverse = LittleEndian.toNat bytes := by
  induction bytes with
  | nil => rfl
  | cons byte rest ih =>
    rw [List.reverse_cons, toNat_concat, ih, LittleEndian.toNat]

end PooledBuffers.BigEndian
