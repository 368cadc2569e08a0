import PooledBuffers.Error
import PooledBuffers.Storage
import PooledBuffers.Text.Decimal
import PooledBuffers.Wire.Bytes

/-!
# Fixed-width values

A layout gives each value of a type the same number of bytes, in a little-endian and in a
big-endian form. Numbers have a big-endian form of their own; that of any other type is its
little-endian form backwards, as a whole and not field by field.

* `Layout` — the width, and the two directions in both orders; `LawfulLayout` — the directions undo
  each other, and the orders are each other backwards.
* `Layout.record` — the layout of a record, by its fields.
* `Layout.write`, `Layout.read` — at the start of a stretch of memory, with its length checked.
-/

namespace PooledBuffers

/-- Types whose values take a fixed number of bytes, `encode` and `decode` in little-endian order.
The two that decode are meant for that many bytes. A type without a big-endian form of its own
reverses the little-endian one. -/
class Layout (τ : Type) where
  width : Nat
  encode : τ → List UInt8
  decode : List UInt8 → τ
  encodeBig : τ → List UInt8 := fun value => (encode value).reverse
  decodeBig : List UInt8 → τ := fun bytes => decode bytes.reverse

/-- Layouts whose two directions undo each other, and whose two orders are each other backwards. -/
class LawfulLayout (τ : Type) [Layout τ] : Prop where
  length_encode : ∀ value : τ, (Layout.encode value).length = Layout.width τ
  decode_encode : ∀ value : τ, Layout.decode (Layout.encode value) = value
  encode_decode : ∀ bytes : List UInt8, bytes.length = Layout.width τ →
    Layout.encode (Layout.decode bytes : τ) = bytes
  encodeBig_eq : ∀ value : τ, Layout.encodeBig value = (Layout.encode value).reverse := by
    intro _
    rfl
  decodeBig_eq : ∀ bytes : List UInt8, (Layout.decodeBig bytes : τ) = Layout.decode bytes.reverse :=
    by
      intro _
      rfl

/-! ## Layouts of the basic types -/

/-- A 32-bit floating-point number as its bit pattern. -/
structure Binary32 where
  bits : UInt32
  deriving DecidableEq, Repr, Inhabited

/-- The layout of a type whose values stand for the numbers below `256 ^ width`. -/
abbrev Layout.ofNumber {τ : Type} (width : Nat) (toNat : τ → Nat) (ofNat : Nat → τ) :
    Layout τ where
  width := width
  encode value := LittleEndian.ofNat width (toNat value)
  decode bytes := ofNat (LittleEndian.toNat bytes)
  encodeBig value := BigEndian.ofNat width (toNat value)
  decodeBig bytes := ofNat (BigEndian.toNat bytes)

instance : Layout UInt8 := Layout.ofNumber 1 UInt8.toNat UInt8.ofNat
instance : Layout UInt16 := Layout.ofNumber 2 UInt16.toNat UInt16.ofNat
instance : Layout UInt32 := Layout.ofNumber 4 UInt32.toNat UInt32.ofNat
instance : Layout UInt64 := Layout.ofNumber 8 UInt64.toNat UInt64.ofNat
instance : Layout (BitVec 128) := Layout.ofNumber 16 BitVec.toNat (BitVec.ofNat 128)

/-- The layout of a type whose values stand for those of another one, bit by bit. -/
abbrev Layout.via {τ σ : Type} [Layout σ] (toBits : τ → σ) (ofBits : σ → τ) : Layout τ where
  width := Layout.width σ
  encode value := Layout.encode (toBits value)
  decode bytes := ofBits (Layout.decode bytes)
  encodeBig value := Layout.encodeBig (toBits value)
  decodeBig bytes := ofBits (Layout.decodeBig bytes)

/-- The layout of a record, whose fields follow one another; in big-endian order the record is
reversed as a whole. -/
abbrev Layout.record {τ σ : Type} [Layout σ] (toFields : τ → σ) (ofFields : σ → τ) :
    Layout τ where
  width := Layout.width σ
  encode value := Layout.encode (toFields value)
  decode bytes := ofFields (Layout.decode bytes)

instance : Layout Int8 := Layout.via Int8.toUInt8 UInt8.toInt8
instance : Layout Int16 := Layout.via Int16.toUInt16 UInt16.toInt16
instance : Layout Int32 := Layout.via Int32.toUInt32 UInt32.toInt32
instance : Layout Int64 := Layout.via Int64.toUInt64 UInt64.toInt64
instance : Layout Binary32 := Layout.via Binary32.bits Binary32.mk
instance : Layout Binary64 := Layout.via Binary64.bits Binary64.mk

/-- One value after another. -/
instance {τ σ : Type} [Layout τ] [Layout σ] : Layout (τ × σ) where
  width := Layout.width τ + Layout.width σ
  encode value := Layout.encode value.1 ++ Layout.encode value.2
  decode bytes :=
    (Layout.decode (bytes.take (Layout.width τ)), Layout.decode (bytes.drop (Layout.width τ)))

/-- Bytes as they are. -/
instance {n : Nat} : Layout (Vector UInt8 n) where
  width := n
  encode value := value.toList
  decode bytes := Vector.ofFn fun i => bytes.getD i 0

/-! ## Laws of the layouts -/

theorem Layout.ofNumber_lawful {τ : Type} {width : Nat} {toNat : τ → Nat} {ofNat : Nat → τ}
    (toNat_lt : ∀ value, toNat value < Nat.pow 256 width)
    (ofNat_toNat : ∀ value, ofNat (toNat value) = value)
    (toNat_ofNat : ∀ n, n < Nat.pow 256 width → toNat (ofNat n) = n) :
    @LawfulLayout τ (Layout.ofNumber width toNat ofNat) :=
  letI : Layout τ := Layout.ofNumber width toNat ofNat
  { length_encode := fun value => LittleEndian.length_ofNat width (toNat value)
    decode_encode := fun value => by
      show ofNat (LittleEndian.toNat (LittleEndian.ofNat width (toNat value))) = value
      rw [LittleEndian.toNat_ofNat, Nat.mod_eq_of_lt (toNat_lt value), ofNat_toNat]
    encode_decode := fun bytes h => by
      have h : bytes.length = width := h
      have bound := LittleEndian.toNat_lt bytes
      show LittleEndian.ofNat width (toNat (ofNat (LittleEndian.toNat bytes))) = bytes
      rw [toNat_ofNat _ (h ▸ bound), ← h, LittleEndian.ofNat_toNat]
    encodeBig_eq := fun value => BigEndian.ofNat_eq_reverse width (toNat value)
    decodeBig_eq := fun bytes => by
      show ofNat (BigEndian.toNat bytes) = ofNat (LittleEndian.toNat bytes.reverse)
      rw [← BigEndian.toNat_reverse, List.reverse_reverse] }

theorem Layout.via_lawful {τ σ : Type} [Layout σ] [LawfulLayout σ] {toBits : τ → σ}
    {ofBits : σ → τ} (ofBits_toBits : ∀ value, ofBits (toBits value) = value)
    (toBits_ofBits : ∀ bits, toBits (ofBits bits) = bits) :
    @LawfulLayout τ (Layout.via toBits ofBits) :=
  letI : Layout τ := Layout.via toBits ofBits
  { length_encode := fun value => LawfulLayout.length_encode (toBits value)
    decode_encode := fun value => by
      show ofBits (Layout.decode (Layout.encode (toBits value))) = value
      rw [LawfulLayout.decode_encode, ofBits_toBits]
    encode_decode := fun bytes h => by
      show Layout.encode (toBits (ofBits (Layout.decode bytes : σ))) = bytes
      have h : bytes.length = Layout.width σ := h
      rw [toBits_ofBits, LawfulLayout.encode_decode bytes h]
    encodeBig_eq := fun value => LawfulLayout.encodeBig_eq (toBits value)
    decodeBig_eq := fun bytes => congrArg ofBits (LawfulLayout.decodeBig_eq bytes) }

theorem Layout.record_lawful {τ σ : Type} [Layout σ] [LawfulLayout σ] {toFields : τ → σ}
    {ofFields : σ → τ} (ofFields_toFields : ∀ value, ofFields (toFields value) = value)
    (toFields_ofFields : ∀ fields, toFields (ofFields fields) = fields) :
    @LawfulLayout τ (Layout.record toFields ofFields) :=
  letI : Layout τ := Layout.record toFields ofFields
  { length_encode := fun value => LawfulLayout.length_encode (toFields value)
    decode_encode := fun value => by
      show ofFields (Layout.decode (Layout.encode (toFields value))) = value
      rw [LawfulLayout.decode_encode, ofFields_toFields]
    encode_decode := fun bytes h => by
      show Layout.encode (toFields (ofFields (Layout.decode bytes : σ))) = bytes
      have h : bytes.length = Layout.width σ := h
      rw [toFields_ofFields, LawfulLayout.encode_decode bytes h] }

instance : LawfulLayout UInt8 :=
  Layout.ofNumber_lawful UInt8.toNat_lt (fun _ => UInt8.ofNat_toNat)
    fun _ h => UInt8.toNat_ofNat_of_lt' h

instance : LawfulLayout UInt16 :=
  Layout.ofNumber_lawful UInt16.toNat_lt (fun _ => UInt16.ofNat_toNat)
    fun _ h => UInt16.toNat_ofNat_of_lt' h

instance : LawfulLayout UInt32 :=
  Layout.ofNumber_lawful UInt32.toNat_lt (fun _ => UInt32.ofNat_toNat)
    fun _ h => UInt32.toNat_ofNat_of_lt' h

instance : LawfulLayout UInt64 :=
  Layout.ofNumber_lawful UInt64.toNat_lt (fun _ => UInt64.ofNat_toNat)
    fun _ h => UInt64.toNat_ofNat_of_lt' h

instance : LawfulLayout (BitVec 128) :=
  Layout.ofNumber_lawful BitVec.isLt (fun value => by simp)
    fun n h => by rw [BitVec.toNat_ofNat, Nat.mod_eq_of_lt h]

instance : LawfulLayout Int8 := Layout.via_lawful (fun _ => rfl) fun _ => rfl
instance : LawfulLayout Int16 := Layout.via_lawful (fun _ => rfl) fun _ => rfl
instance : LawfulLayout Int32 := Layout.via_lawful (fun _ => rfl) fun _ => rfl
instance : LawfulLayout Int64 := Layout.via_lawful (fun _ => rfl) fun _ => rfl
instance : LawfulLayout Binary32 := Layout.via_lawful (fun _ => rfl) fun _ => rfl
instance : LawfulLayout Binary64 := Layout.via_lawful (fun _ => rfl) fun _ => rfl

instance {τ σ : Type} [Layout τ] [LawfulLayout τ] [Layout σ] [LawfulLayout σ] :
    LawfulLayout (τ × σ) where
  length_encode value := by
    simp [Layout.encode, Layout.width, LawfulLayout.length_encode]
  decode_encode value := by
    have h := LawfulLayout.length_encode value.1
    simp [Layout.encode, Layout.decode, ← h, LawfulLayout.decode_encode]
  encode_decode bytes h := by
    have h : bytes.length = Layout.width τ + Layout.width σ := h
    show Layout.encode (Layout.decode (bytes.take (Layout.width τ)) : τ) ++
      Layout.encode (Layout.decode (bytes.drop (Layout.width τ)) : σ) = bytes
    rw [LawfulLayout.encode_decode _ (by simp; omega),
      LawfulLayout.encode_decode _ (by simp; omega), List.take_append_drop]

instance {n : Nat} : LawfulLayout (Vector UInt8 n) where
  length_encode value := value.length_toList
  decode_encode value := by
    ext i h
    simp [Layout.encode, Layout.decode]
  encode_decode bytes h := by
    have h : bytes.length = n := h
    subst h
    apply List.ext_getElem
    · simp [Layout.encode, Layout.decode]
    · intro i h₁ h₂
      simp [Layout.encode, Layout.decode]

/-! ## Byte order -/

/-- Which end of a value comes first. -/
inductive ByteOrder where
  | little
  | big
  deriving DecidableEq, Repr

/-- The widest value that can be laid out in big-endian order. -/
def maxSwapWidth : Nat := 256

namespace Layout

variable (τ : Type) [Layout τ]

/-- Refuses a type that is too wide for the byte order. -/
def checkOrder (order : ByteOrder) : Except Error Unit :=
  if order = .big ∧ maxSwapWidth < width τ then
    .error (.outOfRange "size_of::<T>" (width τ) maxSwapWidth)
  else .ok ()

theorem checkOrder_eq_ok {τ : Type} [Layout τ] (order : ByteOrder) (h : width τ ≤ maxSwapWidth) :
    checkOrder τ order = .ok () :=
  if_neg fun wide => Nat.not_lt.2 h wide.2

/-- Refuses memory that is too short for a value. -/
def checkLength (available : Nat) : Except Error Unit :=
  if available < width τ then .error (.unexpectedEnd .buffer (width τ) available) else .ok ()

variable {τ}

/-- The form of a value in one of the two orders. -/
def encodeIn : ByteOrder → τ → List UInt8
  | .little => encode
  | .big => encodeBig

/-- The value of a form in one of the two orders. -/
def decodeIn : ByteOrder → List UInt8 → τ
  | .little => decode
  | .big => decodeBig

/-- The bytes of a value in one of the two orders. -/
def bytes (order : ByteOrder) (value : τ) : Array UInt8 :=
  (encodeIn order value).toArray

/-- The value that the first bytes of some memory stand for. -/
def ofBytes (order : ByteOrder) (memory : Array UInt8) : τ :=
  decodeIn order (memory.extract 0 (width τ)).toList

/-- Writes a value over the start of some memory and answers its width. What is refused is not
written. -/
def write (order : ByteOrder) (value : τ) (memory : Array UInt8) :
    Except Error Nat × Array UInt8 :=
  match checkOrder τ order with
  | .error e => (.error e, memory)
  | .ok () =>
    match checkLength τ memory.size with
    | .error e => (.error e, memory)
    | .ok () => (.ok (width τ), Storage.overwrite memory 0 (bytes order value))

/-- Reads a value from the start of some memory. -/
def read (order : ByteOrder) (memory : Array UInt8) : Except Error τ := do
  checkOrder τ order
  checkLength τ memory.size
  return ofBytes order memory

end Layout

end PooledBuffers
