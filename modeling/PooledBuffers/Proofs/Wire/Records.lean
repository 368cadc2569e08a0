import PooledBuffers.Proofs.Tape
import PooledBuffers.Wire.Layout

/-!
# Fixed-width values on a tape

A value of a lawful layout can be written anywhere on a tape and read back, and a row of values can
be edited one after the other.

* `Layout.ofBytes_bytes`, `Layout.bytes_ofBytes` — reading and writing undo each other, in both
  orders;
* `Tape.read_write`, `Tape.read_put`, `Tape.read_move` — what is read after an edit;
* `Tape.editEach_apply`, `Tape.read_editEach` — a row of values edited in place: every value is
  edited once, and nothing else is touched.
-/

namespace PooledBuffers

/-! ## Bytes of a value -/

namespace Layout

variable {τ : Type} [Layout τ] [LawfulLayout τ]

@[simp] theorem size_bytes (order : ByteOrder) (value : τ) :
    (bytes order value).size = width τ := by
  cases order <;>
    simp [bytes, encodeIn, LawfulLayout.encodeBig_eq, LawfulLayout.length_encode]

@[simp] theorem ofBytes_bytes (order : ByteOrder) (value : τ) :
    (ofBytes order (bytes order value) : τ) = value := by
  have whole : (bytes order value).extract 0 (width τ) = bytes order value := by
    rw [← size_bytes order value, Array.extract_size]
  rw [ofBytes, whole]
  cases order <;>
    simp [bytes, encodeIn, decodeIn, LawfulLayout.encodeBig_eq, LawfulLayout.decodeBig_eq,
      LawfulLayout.decode_encode]

theorem bytes_ofBytes (order : ByteOrder) {memory : Array UInt8}
    (whole : memory.size = width τ) : bytes order (ofBytes order memory : τ) = memory := by
  have all : memory.extract 0 (width τ) = memory := by
    rw [← whole, Array.extract_size]
  have length : memory.toList.length = width τ := whole
  rw [ofBytes, all, bytes]
  cases order with
  | little =>
    show (encode (decode memory.toList : τ)).toArray = memory
    rw [LawfulLayout.encode_decode _ length]
  | big =>
    show (encodeBig (decodeBig memory.toList : τ)).toArray = memory
    rw [LawfulLayout.encodeBig_eq, LawfulLayout.decodeBig_eq,
      LawfulLayout.encode_decode _ (by rw [List.length_reverse, length]), List.reverse_reverse]

end Layout

namespace Tape

/-! ## One value -/

section Value

variable (τ : Type) [Layout τ]

/-- The value at a place. -/
def read (tape : Tape UInt8) (place : Nat) : τ :=
  Layout.ofBytes .little (tape.stretch place (Layout.width τ))

variable {τ}

/-- The tape with a value written over it. -/
def write (tape : Tape UInt8) (place : Nat) (value : τ) : Tape UInt8 :=
  tape.put place (Layout.bytes .little value)

theorem read_congr {tape other : Tape UInt8} {place : Nat}
    (h : ∀ i, place ≤ i → i < place + Layout.width τ → tape i = other i) :
    tape.read τ place = other.read τ place := by
  have same : tape.stretch place (Layout.width τ) = other.stretch place (Layout.width τ) :=
    stretch_congr fun i inside => h _ (Nat.le_add_right _ _) (by omega)
  rw [read, same, read]

theorem read_put (tape : Tape UInt8) {start place : Nat} {run : Array UInt8}
    (h : place + Layout.width τ ≤ start ∨ start + run.size ≤ place) :
    (tape.put start run).read τ place = tape.read τ place := by
  rw [read, stretch_put_of_disjoint tape h, read]

/-- A value that is moved is read at the same distance from the new start. -/
theorem read_move (tape : Tape UInt8) (start target : Nat) {size offset : Nat}
    (inside : offset + Layout.width τ ≤ size) :
    (tape.move start size target).read τ (target + offset) = tape.read τ (start + offset) := by
  rw [read, stretch_move tape start target inside, read]

theorem read_move_of_disjoint (tape : Tape UInt8) {start size target place : Nat}
    (h : place + Layout.width τ ≤ target ∨ target + size ≤ place) :
    (tape.move start size target).read τ place = tape.read τ place :=
  read_put tape (by simpa using h)

variable [LawfulLayout τ]

@[simp] theorem read_write (tape : Tape UInt8) (place : Nat) (value : τ) :
    (tape.write place value).read τ place = value := by
  have back := tape.stretch_put place (Layout.bytes .little value)
  rw [Layout.size_bytes] at back
  rw [read, write, back, Layout.ofBytes_bytes]

end Value

/-! ## A row of values -/

section Row

variable {τ : Type} [Layout τ]

/-- The first `count` values of a row edited in place, in their order. An edit sees what is at the
value's place when its turn comes; it may leave the place alone. -/
def editEach (tape : Tape UInt8) (base : Nat) (edit : Nat → τ → Option τ) : Nat → Tape UInt8
  | 0 => tape
  | count + 1 =>
    match edit count ((tape.editEach base edit count).read τ (base + count * Layout.width τ)) with
    | some value => (tape.editEach base edit count).write (base + count * Layout.width τ) value
    | none => tape.editEach base edit count

variable [LawfulLayout τ] {tape : Tape UInt8} {base : Nat} {edit : Nat → τ → Option τ}

theorem editEach_apply {count i : Nat} (h : i < base ∨ base + count * Layout.width τ ≤ i) :
    tape.editEach base edit count i = tape i := by
  induction count with
  | zero => rfl
  | succ count ih =>
    rw [Nat.succ_mul] at h
    have before := ih (by omega)
    rw [editEach]
    cases edit count ((tape.editEach base edit count).read τ (base + count * Layout.width τ)) with
    | none => exact before
    | some value =>
      show (Tape.write _ _ value) i = _
      rw [write]
      rcases h with front | behind
      · rw [put_apply_of_lt (by omega), before]
      · rw [put_apply_of_le (by rw [Layout.size_bytes]; omega), before]

/-- Every value of the row is edited as it was before all edits. -/
theorem read_editEach {count k : Nat} (h : k < count) :
    (tape.editEach base edit count).read τ (base + k * Layout.width τ) =
      (edit k (tape.read τ (base + k * Layout.width τ))).getD
        (tape.read τ (base + k * Layout.width τ)) := by
  induction count with
  | zero => omega
  | succ count ih =>
    rw [editEach]
    rcases Nat.lt_succ_iff_lt_or_eq.1 h with below | rfl
    · have places : (k + 1) * Layout.width τ ≤ count * Layout.width τ :=
        Nat.mul_le_mul_right _ below
      rw [Nat.succ_mul] at places
      rw [← ih below]
      cases edit count ((tape.editEach base edit count).read τ (base + count * Layout.width τ)) with
      | none => rfl
      | some value => exact read_put _ (.inl (by omega))
    · -- The edits before this one stopped where the value starts.
      have untouched : (tape.editEach base edit k).read τ (base + k * Layout.width τ) =
          tape.read τ (base + k * Layout.width τ) :=
        read_congr fun i below _ => editEach_apply (.inr below)
      rw [untouched]
      cases edit k (tape.read τ (base + k * Layout.width τ)) with
      | none => exact untouched
      | some value => exact read_write _ _ _

end Row

end Tape

end PooledBuffers
