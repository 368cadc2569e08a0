import PooledBuffers.Proofs.Regions.Holds

/-!
# Bytes at the end of a region

* `Sheet.Holds.openRegion` — a region without a header gets an empty slot behind all others;
* `Sheet.Holds.insert` — a run put behind the bytes of a slot moves the slots behind it up.
-/

namespace PooledBuffers.Regions

open RegionStore (maxWord handleOffset)

variable {sheet : Sheet} {slots : List Slot}

/-! ## Opening -/

theorem Sheet.growHeaders_fields (sheet : Sheet) (needed : Nat) :
    ∃ tape capacity, sheet.growHeaders needed =
      { sheet with tape := tape, headerCapacity := capacity } := by
  unfold Sheet.growHeaders
  split
  · exact ⟨_, _, rfl⟩
  · exact ⟨_, _, rfl⟩

theorem Sheet.openRegion_fields (sheet : Sheet) (id : Nat) :
    (sheet.openRegion id).regionCount = sheet.regionCount ∧
      (sheet.openRegion id).dataLength = sheet.dataLength := by
  obtain ⟨tape, capacity, grown⟩ := sheet.growHeaders_fields (sheet.headerLength + headerSize)
  rw [Sheet.openRegion, grown]
  exact ⟨rfl, rfl⟩

namespace Sheet

section Place

variable {id other offset count : Nat}

theorem handleOf_placeHeader : (sheet.placeHeader id).handleOf id = .ofNat sheet.headerLength :=
  handleOf_putHandle

theorem handleOf_placeHeader_of_ne (h : other * 4 + 4 ≤ sheet.handleCapacity)
    (different : other ≠ id) : (sheet.placeHeader id).handleOf other = sheet.handleOf other := by
  unfold placeHeader
  simp only
  rw [handleOf_putHandle_of_ne different, handleOf_putHeader]
  · rfl
  · exact h

variable (small : sheet.headerLength ≤ maxWord) (h : id * 4 + 4 ≤ sheet.handleCapacity)

include small h

theorem headerAt_placeHeader :
    (sheet.placeHeader id).headerAt sheet.headerLength =
      { dataOffset := .ofNat sheet.dataLength } := by
  unfold placeHeader
  simp only [toNat_word small]
  rw [headerAt_putHandle, headerAt_putHeader]
  exact h

theorem headerAt_placeHeader_of_lt {k : Nat} (whole : sheet.headerLength = count * 12)
    (before : k < count) :
    (sheet.placeHeader id).headerAt (k * 12) = sheet.headerAt (k * 12) := by
  have place : (UInt32.ofNat sheet.headerLength).toNat = count * 12 :=
    (toNat_word small).trans whole
  unfold placeHeader
  simp only [place]
  rw [headerAt_putHandle, headerAt_putHeader_of_ne (by omega)]
  · rfl
  · exact h

theorem dataAt_placeHeader (room : sheet.headerLength + 12 ≤ sheet.headerCapacity) :
    (sheet.placeHeader id).dataAt offset count = sheet.dataAt offset count := by
  unfold placeHeader
  simp only [toNat_word small]
  rw [dataAt_putHandle, dataAt_putHeader]
  · rfl
  · exact room
  · exact h

end Place

end Sheet

theorem Sheet.Holds.placeHeader (holds : sheet.Holds slots) {id : Nat}
    (known : id < sheet.regionCount) (closed : ∀ slot ∈ slots, slot.id ≠ id)
    (small : sheet.headerLength ≤ maxWord)
    (room : sheet.headerLength + 12 ≤ sheet.headerCapacity) :
    (sheet.placeHeader id).Holds (slots ++ [⟨id, sheet.dataLength, #[], 0⟩]) := by
  have sized := holds.sized
  have length_eq := holds.headerLength_eq
  have front := sized.handle_le known
  refine {
    sized := { sized with headers_le := room, headerLength_le := ?_ }
    packed := holds.packed.push known closed
    headerLength_eq := ?_
    handle_eq := fun {k slot} found => ?_
    closed_eq := fun {other} below free => ?_
    header_eq := fun {k slot} found => ?_
    data_eq := fun slot mem => ?_ }
  · show sheet.headerLength + 12 ≤ maxWord + 12
    omega
  · rw [List.length_append, List.length_singleton]
    show sheet.headerLength + 12 = (slots.length + 1) * 12
    omega
  · rcases found_concat found with old | ⟨rfl, rfl⟩
    · have mem := List.mem_of_getElem? old
      have below := sized.handle_le (holds.packed.id_lt _ mem)
      rw [handleOf_placeHeader_of_ne below (closed _ mem)]
      exact holds.handle_eq old
    · rw [← length_eq]
      exact handleOf_placeHeader
  · -- A region without a slot is not the one that just got one.
    have different : other ≠ id := fun same =>
      free _ (List.mem_append_right _ (List.mem_singleton_self _)) same.symm
    rw [handleOf_placeHeader_of_ne (sized.handle_le below) different]
    exact holds.closed_eq below fun slot mem => free slot (List.mem_append_left _ mem)
  · rcases found_concat found with old | ⟨rfl, rfl⟩
    · rw [headerAt_placeHeader_of_lt small front length_eq (List.getElem?_eq_some_iff.1 old).1]
      exact holds.header_eq old
    · rw [← length_eq]
      exact headerAt_placeHeader small front
  · rw [dataAt_placeHeader small front room]
    rcases List.mem_append.1 mem with old | new
    · exact holds.data_eq slot old
    · rw [List.mem_singleton.1 new]
      exact Tape.stretch_zero _ _

theorem Sheet.Holds.openRegion (holds : sheet.Holds slots) {id : Nat}
    (known : id < sheet.regionCount) (closed : ∀ slot ∈ slots, slot.id ≠ id)
    (small : sheet.headerLength ≤ maxWord) :
    (sheet.openRegion id).Holds (slots ++ [⟨id, sheet.dataLength, #[], 0⟩]) := by
  have needed : sheet.headerLength + headerSize ≤ 2 * maxWord := by
    have large : 12 ≤ maxWord := by decide
    rw [headerSize_eq]
    omega
  have grown := holds.growHeaders needed
  have room := sheet.le_growHeaders (sheet.headerLength + headerSize)
  obtain ⟨tape, capacity, fields⟩ := sheet.growHeaders_fields (sheet.headerLength + headerSize)
  rw [fields] at grown room
  rw [Sheet.openRegion, fields]
  exact grown.placeHeader known closed small room

/-! ## Inserting -/

theorem Slot.header_raise {slot : Slot} (small : slot.offset ≤ maxWord) (stop added : Nat) :
    (slot.raise stop added).header = slot.header.raise stop (.ofNat added) := by
  have offset : slot.header.dataOffset.toNat = slot.offset := toNat_word small
  unfold Slot.raise Header.raise
  rw [offset]
  split
  · simp only [Slot.header, UInt32.ofNat_add]
  · rfl

theorem Slot.header_grow {slot : Slot} (small : slot.items ≤ maxWord) (run : Array UInt8)
    (items : Nat) :
    (slot.grow slot run items).header = slot.header.extend (.ofNat run.size) items := by
  have count : slot.header.count.toNat = slot.items := toNat_word small
  rw [Slot.grow_self, Header.extend, count]
  simp only [Slot.header, Array.size_append, UInt32.ofNat_add]

/-- What is read of a slot after a run was put at the end of `target`, wherever it is then. -/
theorem Sheet.Holds.dataAt_insert (holds : sheet.Holds slots) {k : Nat} {target slot : Slot}
    (at_target : slots[k]? = some target) (mem : slot ∈ slots) (run : Array UInt8) (items : Nat) :
    (sheet.insert (.ofNat (k * 12)) target.header run items).dataAt
        (slot.grow target run items).offset (slot.grow target run items).content.size =
      (slot.grow target run items).content := by
  have mem_target : target ∈ slots := List.mem_of_getElem? at_target
  obtain ⟨-, -, -, stop⟩ := holds.toNat_header mem_target
  have last := holds.lt_length at_target
  rw [← holds.toNat_handle at_target] at last
  rw [Sheet.dataAt_insert last holds.sized.headers_le, stop]
  rcases holds.packed.range_grow mem_target mem run items with
    ⟨rfl, offset, -⟩ | ⟨other, behind, offset, -⟩ | ⟨other, -, before, offset, -⟩
  · -- The target's bytes stay, and the run stands behind them.
    have own : slot.offset + slot.content.size ≤ slot.stop := Nat.le_refl _
    rw [offset, Slot.grow_self, Array.size_append, ← Sheet.dataAt_append,
      Sheet.dataAt_spread_of_le own, holds.data_eq slot mem]
    exact congrArg _ (Sheet.dataAt_spread_run slot.stop run)
  · -- What is behind the target moves up, and so does where it is looked for.
    have inside := holds.packed.stop_le slot mem
    rw [offset, Slot.grow_other other, Slot.content_raise,
      Sheet.dataAt_spread_of_ge behind inside]
    exact holds.data_eq slot mem
  · have front : slot.offset + slot.content.size ≤ target.stop :=
      Nat.le_trans before target.offset_le_stop
    rw [offset, Slot.grow_other other, Slot.content_raise, Sheet.dataAt_spread_of_le front]
    exact holds.data_eq slot mem

/-- What the header of a slot says after that. -/
theorem Sheet.Holds.headerAt_insert (holds : sheet.Holds slots) {j k : Nat} {target slot : Slot}
    (at_target : slots[k]? = some target) (found : slots[j]? = some slot) (run : Array UInt8)
    (items : Nat) :
    (sheet.insert (.ofNat (k * 12)) target.header run items).headerAt (j * 12) =
      (slot.grow target run items).header := by
  have mem := List.mem_of_getElem? found
  have handle : (UInt32.ofNat (k * 12)).toNat = k * 12 := holds.toNat_handle at_target
  obtain ⟨-, -, -, stop⟩ := holds.toNat_header (List.mem_of_getElem? at_target)
  by_cases own : j = k
  · obtain rfl : slot = target := by
      rw [own, at_target] at found
      exact (Option.some.inj found).symm
    rw [own, Sheet.headerAt_insert handle, Slot.header_grow (holds.packed.items_le _ mem)]
  · have other : slot.id ≠ target.id := holds.packed.id_ne found at_target own
    rw [Sheet.headerAt_insert_of_ne handle own (holds.lt_length found) holds.sized.headers_le, stop,
      holds.header_eq found, Slot.grow_other other, Slot.header_raise (holds.small_slot mem).1]

theorem Sheet.Holds.insert (holds : sheet.Holds slots) {k : Nat} {target : Slot}
    (at_target : slots[k]? = some target) {run : Array UInt8}
    (small : sheet.dataLength + run.size ≤ maxWord) (items : Nat) :
    (sheet.insert (.ofNat (k * 12)) target.header run items).Holds
      (slots.map (·.grow target run items)) := by
  have sized := holds.sized
  have mem_target : target ∈ slots := List.mem_of_getElem? at_target
  obtain ⟨tape, fields⟩ := sheet.insert_fields (.ofNat (k * 12)) target.header run items
  refine {
    sized := ?_
    packed := ?_
    headerLength_eq := ?_
    handle_eq := fun {j _} found => ?_
    closed_eq := fun {other} below free => ?_
    header_eq := fun {j _} found => ?_
    data_eq := List.forall_mem_map.2 fun slot mem => ?_ }
  · rw [fields]
    exact { sized with dataLength_le := small }
  · rw [fields]
    exact holds.packed.grow mem_target run items
  · rw [fields, List.length_map]
    exact holds.headerLength_eq
  · rw [List.getElem?_map, Option.map_eq_some_iff] at found
    obtain ⟨slot, found, rfl⟩ := found
    have known := holds.packed.id_lt _ (List.mem_of_getElem? found)
    rw [Slot.id_grow, Sheet.handleOf_insert (sized.handle_le known)]
    exact holds.handle_eq found
  · rw [fields] at below
    rw [Sheet.handleOf_insert (sized.handle_le below)]
    refine holds.closed_eq below fun slot mem => ?_
    simpa using free _ (List.mem_map_of_mem mem)
  · rw [List.getElem?_map, Option.map_eq_some_iff] at found
    obtain ⟨slot, found, rfl⟩ := found
    exact holds.headerAt_insert at_target found run items
  · exact holds.dataAt_insert at_target mem run items

end PooledBuffers.Regions
