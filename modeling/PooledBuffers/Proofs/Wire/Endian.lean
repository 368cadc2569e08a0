import PooledBuffers.Proofs.Wire.Records
import PooledBuffers.Proofs.Writer.Moving
import PooledBuffers.Regions.Header
import PooledBuffers.Writer.Typed

/-!
# Laws of the two byte orders

Numbers have a big-endian form of their own, and what is put together of other values is reversed as
a whole. Both come to one set of laws, which hold of every type that is laid out.

* `Layout.Covered` — the types that are laid out, by how they are put together;
* `Layout.Covered.lawful` — whichever way that is, the layout is lawful;
* `Layout.EndianLaws`, `Layout.endianLaws` — what is written and read at the start of some memory;
* `Writer.KeepsValue`, `Writer.Shows.keepsValue` — a value written by a writer and read back;
* `Layout.endian_round_trips` — all of it, for every such type.
-/

namespace PooledBuffers

/-- A run written over the front of some memory takes the place of what was there. -/
theorem Storage.overwrite_front {α : Type} {cells run : Array α} (inside : run.size ≤ cells.size) :
    overwrite cells 0 run = run ++ cells.extract run.size cells.size := by
  apply Array.ext_getElem?
  intro i
  rw [getElem?_overwrite]
  by_cases front : i < run.size
  · rw [if_pos (by omega), Nat.sub_zero, Array.getElem?_append_left front]
  · rw [if_neg (by omega), Array.getElem?_append_right (by omega), Array.getElem?_extract]
    have place : run.size + (i - run.size) = i := by omega
    rw [place]
    split
    · rfl
    · exact Array.getElem?_eq_none (by omega)

namespace Layout

/-! ## The types that are laid out -/

/-- The types that are laid out: numbers of all widths, with a sign or without, floating-point
numbers, bytes as they are, and whatever is put together of such types. Sizes are numbers of eight
bytes, and the sixteen bytes of a number stand for one with a sign as well, which has the same
bits. -/
inductive Covered : (τ : Type) → [Layout τ] → Prop
  | uint8 : Covered UInt8
  | uint16 : Covered UInt16
  | uint32 : Covered UInt32
  | uint64 : Covered UInt64
  | bits128 : Covered (BitVec 128)
  | int8 : Covered Int8
  | int16 : Covered Int16
  | int32 : Covered Int32
  | int64 : Covered Int64
  | binary32 : Covered Binary32
  | binary64 : Covered Binary64
  | bytes (n : Nat) : Covered (Vector UInt8 n)
  | pair {τ σ : Type} [Layout τ] [Layout σ] : Covered τ → Covered σ → Covered (τ × σ)
  | record {τ σ : Type} [Layout σ] {toFields : τ → σ} {ofFields : σ → τ} :
      (∀ value, ofFields (toFields value) = value) →
      (∀ fields, toFields (ofFields fields) = fields) →
      Covered σ → @Covered τ (Layout.record toFields ofFields)

/-- By induction on how the type is put together. -/
theorem Covered.lawful {τ : Type} [layout : Layout τ] (covered : Covered τ) : LawfulLayout τ := by
  induction covered with
  | uint8 | uint16 | uint32 | uint64 | bits128 => infer_instance
  | int8 | int16 | int32 | int64 | binary32 | binary64 => infer_instance
  | bytes n => infer_instance
  | pair _ _ first second => infer_instance
  | record back forth _ fields => exact Layout.record_lawful back forth

/-- A region's header is three numbers. -/
theorem covered_header : Covered Regions.Header :=
  .record (fun _ => rfl) (fun _ => rfl) (.pair .uint32 (.pair .uint32 .uint32))

/-! ## At the start of some memory -/

section

variable (τ : Type) [Layout τ]

/-- Whether values of the type can be laid out in a byte order. -/
def Admits (order : ByteOrder) : Prop := order = .little ∨ width τ ≤ maxSwapWidth

/-- The laws of the two byte orders for the values of one type, at the start of some memory. -/
structure EndianLaws : Prop where
  /-- What is written replaces as many bytes as a value has, and is read back. -/
  written : ∀ order, Admits τ order → ∀ (value : τ) (memory : Array UInt8), width τ ≤ memory.size →
    ∃ front : Array UInt8, front.size = width τ ∧
      write order value memory = (.ok (width τ), front ++ memory.extract (width τ) memory.size) ∧
      read order (front ++ memory.extract (width τ) memory.size) = .ok value
  reversed : width τ ≤ maxSwapWidth → ∀ (value : τ) (memory : Array UInt8),
    width τ ≤ memory.size →
      (write .big value memory).2.extract 0 (width τ) =
        ((write .little value memory).2.extract 0 (width τ)).reverse
  /-- What is read is written as the bytes that it was read from. -/
  read_back : ∀ order, Admits τ order → ∀ memory : Array UInt8, width τ ≤ memory.size →
    ∃ value : τ, read order memory = .ok value ∧
      ∀ other : Array UInt8, width τ ≤ other.size →
        write order value other =
          (.ok (width τ), memory.extract 0 (width τ) ++ other.extract (width τ) other.size)
  too_wide : maxSwapWidth < width τ → ∀ memory : Array UInt8,
    (read .big memory : Except Error τ) =
      .error (.outOfRange "size_of::<T>" (width τ) maxSwapWidth) ∧
    ∀ value : τ, write .big value memory =
      (.error (.outOfRange "size_of::<T>" (width τ) maxSwapWidth), memory)
  too_short : ∀ order, Admits τ order → ∀ memory : Array UInt8, memory.size < width τ →
    (read order memory : Except Error τ) =
      .error (.unexpectedEnd .buffer (width τ) memory.size) ∧
    ∀ value : τ, write order value memory =
      (.error (.unexpectedEnd .buffer (width τ) memory.size), memory)
  refused : ∀ order (value : τ) (memory : Array UInt8) e,
    (write order value memory).1 = .error e → (write order value memory).2 = memory

variable {τ} {order : ByteOrder} {memory : Array UInt8}

theorem Admits.checkOrder_eq (admits : Admits τ order) : checkOrder τ order = .ok () := by
  apply if_neg
  rintro ⟨big, wide⟩
  rcases admits with little | narrow
  · exact nomatch big ▸ little
  · exact Nat.not_lt.2 narrow wide

theorem checkLength_eq {available : Nat} (enough : width τ ≤ available) :
    checkLength τ available = .ok () :=
  if_neg (Nat.not_lt.2 enough)

theorem checkLength_error {available : Nat} (short : available < width τ) :
    checkLength τ available = .error (.unexpectedEnd .buffer (width τ) available) :=
  if_pos short

theorem extract_front {front rest : Array UInt8} {count : Nat} (whole : front.size = count) :
    (front ++ rest).extract 0 count = front := by
  subst whole
  simp

theorem read_eq (admits : Admits τ order) (enough : width τ ≤ memory.size) :
    (read order memory : Except Error τ) = .ok (ofBytes order memory) := by
  rw [read, admits.checkOrder_eq, checkLength_eq enough]
  rfl

/-- Only the front of some memory is read. -/
theorem ofBytes_append {front rest : Array UInt8} (whole : front.size = width τ) :
    (ofBytes order (front ++ rest) : τ) = ofBytes order front := by
  rw [ofBytes, extract_front whole, ofBytes, ← whole, Array.extract_size]

variable [LawfulLayout τ]

theorem write_eq (admits : Admits τ order) (value : τ) (enough : width τ ≤ memory.size) :
    write order value memory =
      (.ok (width τ), bytes order value ++ memory.extract (width τ) memory.size) := by
  have inside : (bytes order value).size ≤ memory.size := by
    rw [size_bytes]
    exact enough
  rw [write, admits.checkOrder_eq, checkLength_eq enough]
  show (Except.ok (width τ), Storage.overwrite memory 0 (bytes order value)) = _
  rw [Storage.overwrite_front inside, size_bytes]

theorem bytes_big (value : τ) : bytes .big value = (bytes .little value).reverse := by
  rw [bytes, encodeIn, LawfulLayout.encodeBig_eq, bytes, encodeIn, List.reverse_toArray]

theorem endianLaws : EndianLaws τ where
  written := by
    intro order admits value memory enough
    have whole : (bytes order value).size = width τ := size_bytes order value
    refine ⟨bytes order value, whole, write_eq admits value enough, ?_⟩
    have long : width τ ≤ (bytes order value ++ memory.extract (width τ) memory.size).size := by
      rw [Array.size_append, whole]
      exact Nat.le_add_right _ _
    rw [read_eq admits long, ofBytes_append whole, ofBytes_bytes]
  reversed := by
    intro narrow value memory enough
    rw [write_eq (.inr narrow) value enough, write_eq (.inl rfl) value enough,
      extract_front (size_bytes .big value), extract_front (size_bytes .little value), bytes_big]
  read_back := by
    intro order admits memory enough
    have whole : (memory.extract 0 (width τ)).size = width τ := by
      rw [Array.size_extract]
      omega
    refine ⟨ofBytes order memory, read_eq admits enough, ?_⟩
    intro other enough'
    have front : bytes order (ofBytes order memory : τ) = memory.extract 0 (width τ) := by
      have parts : memory = memory.extract 0 (width τ) ++ memory.extract (width τ) memory.size := by
        rw [Array.extract_append_extract, Nat.min_eq_left (Nat.zero_le _), Nat.max_eq_right enough,
          Array.extract_size]
      conv => lhs; rw [parts]
      rw [ofBytes_append whole, bytes_ofBytes order whole]
    rw [write_eq admits _ enough', front]
  too_wide := by
    intro wide memory
    have refused : checkOrder τ .big =
        .error (.outOfRange "size_of::<T>" (width τ) maxSwapWidth) := if_pos ⟨rfl, wide⟩
    refine ⟨?_, ?_⟩
    · rw [read, refused]
      rfl
    · intro value
      rw [write, refused]
  too_short := by
    intro order admits memory short
    refine ⟨?_, ?_⟩
    · rw [read, admits.checkOrder_eq, checkLength_error short]
      rfl
    · intro value
      rw [write, admits.checkOrder_eq, checkLength_error short]
  refused := by
    intro order value memory e failed
    unfold write at failed ⊢
    split
    · rfl
    split
    · rfl
    · rename_i ordered _ long
      rw [ordered] at failed
      simp only [long] at failed
      exact nomatch failed

end

end Layout

/-! ## At the cursor of a writer -/

namespace Writer

variable {τ : Type} [Layout τ]

/-- What has become of a writer that wrote a value at its cursor: the value's bytes are there, all
other cells are as they were, or blank if they are new, and from the old place the value is read
back, which changes nothing but the cursor. -/
structure KeepsValue (writer next : Writer UInt8) (order : ByteOrder) (value : τ) : Prop where
  /-- The memory has as many cells as it says. -/
  sizes : writer.cells.size = writer.capacity ∧ next.cells.size = next.capacity
  stepped : next.position = writer.position + Layout.width τ
  stored : next.slice writer.position (Layout.width τ) = Layout.bytes order value
  kept : ∀ k < writer.capacity, k < writer.position ∨ writer.position + Layout.width τ ≤ k →
    next.cells[k]? = writer.cells[k]?
  added : ∀ k < next.capacity, writer.capacity ≤ k → writer.position + Layout.width τ ≤ k →
    next.cells[k]? = some Element.blank
  not_shrunk : writer.capacity ≤ next.capacity
  read_back : ∃ back, next.setPosition writer.position = .ok back ∧ back.cells = next.cells ∧
    ∀ movePosition, back.read order movePosition = .ok (value, if movePosition then next else back)

variable [LawfulLayout τ] {writer : Writer UInt8} {pool : Pool UInt8} {tape : Tape UInt8}
  {position : Nat} {order : ByteOrder}

/-- A value is written wherever the cursor is, with growth if there is too little memory behind
it. -/
theorem Shows.keepsValue (shows : Shows (writer, pool) tape position writer.capacity)
    (cursor : position ≤ writer.capacity) (admits : Layout.Admits τ order)
    (small : position + Layout.width τ ≤ Size.maxCapacity) (value : τ) :
    ∃ next pool', writer.write order value pool = .ok (Layout.width τ, next, pool') ∧
      writer.KeepsValue next order value := by
  obtain rfl : writer.position = position := shows.position_eq
  have whole : (Layout.bytes order value).extract 0 (Layout.width τ) =
      Layout.bytes order value := by
    rw [← Layout.size_bytes order value, Array.extract_size]
  obtain ⟨-, after⟩ := shows.acquire cursor small true (Layout.bytes order value)
  rw [whole] at after
  have written : writer.write order value pool = .ok (Layout.width τ,
      (writer.acquire (Layout.width τ) true (Layout.bytes order value) pool).2) := by
    rw [write, admits.checkOrder_eq]
    rfl
  generalize (writer.acquire (Layout.width τ) true (Layout.bytes order value) pool).2 = state
    at after written
  obtain ⟨next, pool'⟩ := state
  refine ⟨next, pool', written, ?_⟩
  have room := after.length_le
  have stepped : next.position = writer.position + Layout.width τ := after.position_eq
  have stored : next.slice writer.position (Layout.width τ) = Layout.bytes order value := by
    have back := tape.stretch_put writer.position (Layout.bytes order value)
    rw [Layout.size_bytes] at back
    rw [after.slice_eq (Nat.le_max_right _ _), back]
  simp only at room
  have elsewhere (k : Nat) (outside : k < writer.position ∨ writer.position + Layout.width τ ≤ k) :
      tape.put writer.position (Layout.bytes order value) k = tape k := by
    rcases outside with front | behind
    · exact Tape.put_apply_of_lt front
    · exact Tape.put_apply_of_le (by rwa [Layout.size_bytes])
  refine ⟨⟨shows.fits.size_cells, after.fits.size_cells⟩, stepped, stored, ?_, ?_, by omega, ?_⟩
  · intro k inside outside
    rw [after.getElem?_cells (show k < next.capacity by omega), shows.getElem?_cells inside,
      elsewhere k outside]
  · intro k inside new behind
    rw [after.getElem?_cells inside, elsewhere k (.inr behind), shows.tape_of_le new]
  · refine ⟨{ next with position := writer.position }, if_neg (by omega), rfl, ?_⟩
    intro movePosition
    have enough : Layout.width τ ≤ next.capacity - writer.position := by omega
    have value_back : (Layout.ofBytes order (next.slice writer.position (Layout.width τ)) : τ) =
        value := by
      rw [stored, Layout.ofBytes_bytes]
    have again : { next with position := writer.position + Layout.width τ } = next := by
      rw [← stepped]
    unfold Writer.read
    show (Layout.checkLength τ (next.capacity - writer.position) >>= fun _ => _) = _
    rw [Layout.checkLength_eq enough, admits.checkOrder_eq]
    show Except.ok ((Layout.ofBytes order (next.slice writer.position (Layout.width τ)) : τ),
      if movePosition then { next with position := writer.position + Layout.width τ } else _) = _
    rw [value_back, again]

end Writer

/-! ## Every type that is laid out -/

/-- Every type that is laid out obeys the laws of the two byte orders. And a value of it that a
writer puts at its cursor, in whatever state the writer has come into and with whatever growth that
takes, is read back from there, with every other cell as it was. -/
theorem Layout.endian_round_trips {τ : Type} [Layout τ] (covered : Layout.Covered τ) :
    Layout.EndianLaws τ ∧
    ∀ (begins : Writer.Start UInt8) (minGrow : Option Nat) (pool : Pool UInt8),
      pool.Reachable → ∀ actions : List (Writer.Action UInt8),
      (begins.make minGrow pool).1.Allocatable (begins.make minGrow pool).2 actions →
      let first := begins.make minGrow pool
      let last := first.1.run first.2 actions
      ∀ order, Layout.Admits τ order →
        last.1.position + Layout.width τ ≤ Size.maxCapacity → ∀ value : τ,
        ∃ next pool', last.1.write order value last.2 = .ok (Layout.width τ, next, pool') ∧
          last.1.KeepsValue next order value := by
  have lawful := covered.lawful
  refine ⟨Layout.endianLaws, ?_⟩
  intro begins minGrow pool reachable actions allocatable first last order admits small value
  have simulates := (begins.simulates minGrow reachable.sound).run actions allocatable
  have place : last.1.position = _ := simulates.shows.position_eq
  exact simulates.shows.keepsValue simulates.cursor_le admits (place ▸ small) value

/-- A record of three numbers and a number with a sign, backwards over the end of six lent bytes,
from a cursor that was put back. -/
theorem Layout.endian_round_trips_outgrown :
    let first := (Writer.Start.memory #[(1 : UInt8), 2, 3, 4, 5, 6]).make (some 9) Pool.standard
    let actions := [.appendRun #[7, 8, 9], .setPosition 2]
    let last := first.1.run first.2 actions
    let value : Regions.Header × Int16 := (⟨1, 0xFFFFFFFF, 3⟩, -2)
    Layout.Covered (Regions.Header × Int16) ∧ first.1.Allocatable first.2 actions ∧
      Layout.Admits (Regions.Header × Int16) .big ∧
      ∃ next pool', last.1.write .big value last.2 = .ok (14, next, pool') ∧
        last.1.KeepsValue next .big value := by
  intro first actions last value
  have covered : Layout.Covered (Regions.Header × Int16) :=
    .pair Layout.covered_header .int16
  have allocatable : first.1.Allocatable first.2 actions := by decide
  have admits : Layout.Admits (Regions.Header × Int16) .big := .inr (by decide)
  obtain ⟨-, keeps⟩ := Layout.endian_round_trips covered
  exact ⟨covered, allocatable, admits, keeps (.memory #[1, 2, 3, 4, 5, 6]) (some 9) Pool.standard
    Pool.reachable_standard actions allocatable .big admits (by decide) value⟩

end PooledBuffers
