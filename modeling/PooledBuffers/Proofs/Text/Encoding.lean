import PooledBuffers.Proofs.Text.Utf16
import PooledBuffers.Proofs.Text.Utf8
import PooledBuffers.Proofs.Wire.Records
import PooledBuffers.Text.Encoding

/-!
# Reading a text undoes writing it

* `unitsOfBytes_bytesOfUnits`, `bytesOfUnits_unitsOfBytes` — code units are read back from their
  bytes, and bytes are those of the units they stand for;
* `join_fillPieces`, `join_unitPieces` — no byte is lost or out of place between pieces;
* `TextEncoding.decode_encoded` — a text is read back from its bytes, in every encoding.
-/

namespace PooledBuffers

/-! ## Pieces -/

/-- The bytes of pieces one after the other. -/
def join (pieces : List (Array UInt8)) : Array UInt8 :=
  (pieces.flatMap Array.toList).toArray

@[simp] theorem join_nil : join [] = #[] := rfl

@[simp] theorem join_cons (piece : Array UInt8) (rest : List (Array UInt8)) :
    join (piece :: rest) = piece ++ join rest := by
  apply Array.ext'
  simp [join]

/-! ## Code units -/

theorem bytesOfUnits_cons (order : ByteOrder) (unit : UInt16) (units : List UInt16) :
    bytesOfUnits order (unit :: units) = Layout.bytes order unit ++ bytesOfUnits order units := by
  apply Array.ext'
  simp [bytesOfUnits]

theorem size_bytesOfUnits (order : ByteOrder) (units : List UInt16) :
    (bytesOfUnits order units).size = units.length * 2 := by
  induction units with
  | nil => rfl
  | cons unit units ih =>
    have two : Layout.width UInt16 = 2 := rfl
    rw [bytesOfUnits_cons, Array.size_append, Layout.size_bytes, ih, two, List.length_cons]
    omega

/-- The first unit is read from the first two bytes, and the others from those behind them. -/
theorem unitsOfBytes_append (order : ByteOrder) {pair rest : Array UInt8} (two : pair.size = 2) :
    unitsOfBytes order (pair ++ rest) =
      (Layout.ofBytes order pair : UInt16) :: unitsOfBytes order rest := by
  have half : (pair ++ rest).size / 2 = rest.size / 2 + 1 := by
    rw [Array.size_append, two]
    omega
  unfold unitsOfBytes
  rw [half, List.range_succ_eq_map, List.map_cons, List.map_map]
  congr 1
  · congr 1
    rw [Array.extract_append, two]
    simp [← two]
  · apply List.map_congr_left
    intro i _
    have first : 2 * (i + 1) - 2 = 2 * i := by omega
    have last : 2 * (i + 1) + 2 - 2 = 2 * i + 2 := by omega
    show Layout.ofBytes order ((pair ++ rest).extract (2 * (i + 1)) (2 * (i + 1) + 2)) = _
    rw [Array.extract_append, Array.extract_eq_empty_of_le (by omega), Array.empty_append, two,
      first, last]

theorem unitsOfBytes_bytesOfUnits (order : ByteOrder) (units : List UInt16) :
    unitsOfBytes order (bytesOfUnits order units) = units := by
  induction units with
  | nil => simp [bytesOfUnits, unitsOfBytes]
  | cons unit units ih =>
    rw [bytesOfUnits_cons, unitsOfBytes_append order (Layout.size_bytes order unit),
      Layout.ofBytes_bytes, ih]

/-- By induction on the number of units, of which the first takes two bytes from the front. -/
theorem bytesOfUnits_unitsOfBytes (order : ByteOrder) {bytes : Array UInt8}
    (even : bytes.size % 2 = 0) : bytesOfUnits order (unitsOfBytes order bytes) = bytes := by
  generalize half : bytes.size / 2 = count
  induction count generalizing bytes with
  | zero =>
    obtain rfl : bytes = #[] := Array.eq_empty_of_size_eq_zero (by omega)
    rfl
  | succ count ih =>
    have two : (bytes.extract 0 2).size = 2 := by
      rw [Array.size_extract]
      omega
    have parts : bytes.extract 0 2 ++ bytes.extract 2 bytes.size = bytes := by
      rw [Array.extract_append_extract, Nat.min_eq_left (by omega), Nat.max_eq_right (by omega),
        Array.extract_size]
    have shorter : (bytes.extract 2 bytes.size).size = bytes.size - 2 := by
      rw [Array.size_extract, Nat.min_self]
    conv => lhs; rw [← parts]
    rw [unitsOfBytes_append order two, bytesOfUnits_cons, Layout.bytes_ofBytes order two,
      ih (by omega) (by omega), parts]

/-! ## Code units in pieces -/

/-- What the piece under way holds comes first. -/
theorem join_fillPieces (order : ByteOrder) (piece : Array UInt8) (units : List UInt16) :
    join (fillPieces order piece units) = piece ++ bytesOfUnits order units := by
  induction units generalizing piece with
  | nil =>
    rw [fillPieces]
    by_cases nothing : piece = #[] <;> simp [nothing, bytesOfUnits]
  | cons unit rest ih =>
    rw [fillPieces, bytesOfUnits_cons, ← Array.append_assoc]
    split
    · rw [join_cons, ih, Array.empty_append]
    · exact ih _

theorem join_bytesOfUnits (order : ByteOrder) (batches : List (List UInt16)) :
    join (batches.map (bytesOfUnits order)) = bytesOfUnits order batches.flatten := by
  induction batches with
  | nil => rfl
  | cons batch rest ih =>
    have split : bytesOfUnits order (batch ++ rest.flatten) =
        bytesOfUnits order batch ++ bytesOfUnits order rest.flatten := by
      apply Array.ext'
      simp [bytesOfUnits]
    rw [List.map_cons, join_cons, ih, List.flatten_cons, split]

/-- The first batches are the units up to the end of the last of them. -/
theorem flatten_first_batches (units : List UInt16) (count : Nat) :
    ((List.range count).map fun i => (units.drop (i * batchLength)).take batchLength).flatten =
      units.take (count * batchLength) := by
  induction count with
  | zero => simp
  | succ count ih =>
    rw [List.range_succ, List.map_append, List.map_singleton, List.flatten_append, ih,
      List.flatten_singleton, Nat.succ_mul, List.take_add]

theorem flatten_batches (units : List UInt16) : (batches units).flatten = units := by
  -- The last batch may be shorter, but the batches together reach to the end.
  have enough : units.length ≤ (units.length + batchLength - 1) / batchLength * batchLength := by
    unfold batchLength pieceLength
    omega
  rw [batches, flatten_first_batches, List.take_of_length_le enough]

theorem join_unitPieces (units : List UInt16) :
    join (unitPieces units) = bytesOfUnits .little units := by
  rw [unitPieces, join_bytesOfUnits, flatten_batches]

/-! ## Texts -/

namespace TextEncoding

/-- The bytes of a text. -/
def encoded (encoding : TextEncoding) (text : String) : Array UInt8 :=
  join (encoding.pieces text)

theorem decode_encoded (encoding : TextEncoding) (text : String) :
    encoding.decode (encoding.encoded text) = .ok text := by
  cases encoding with
  | utf8 =>
    unfold encoded pieces decode
    simp [Utf8.decode_encode]
  | utf16 order =>
    have even : ¬ (bytesOfUnits order (Utf16.encode text)).size % 2 ≠ 0 := by
      rw [size_bytesOfUnits]
      omega
    unfold encoded pieces decode
    simp only [join_fillPieces, Array.empty_append]
    rw [if_neg even, unitsOfBytes_bytesOfUnits, Utf16.decode_encode]

end TextEncoding

end PooledBuffers
