import PooledBuffers.Proofs.Regions.Sheet

/-!
# The three areas of a sheet

* `Sheet.Sized` — the areas are long enough, and all lengths can be counted;
* `Sheet.Holds` — the areas of a sheet show a list of slots: the handles hold the offsets of the
  headers, the headers say where the slots are, and the data area has their bytes.
-/

namespace PooledBuffers.Regions.Sheet

open RegionStore (maxWord handleOffset)

/-- The areas are long enough for what is in use of them, and all lengths are far from the bound on
growth. -/
structure Sized (sheet : Sheet) : Prop where
  handles_le : sheet.regionCount * 4 ≤ sheet.handleCapacity
  headers_le : sheet.headerLength ≤ sheet.headerCapacity
  regionCount_le : sheet.regionCount ≤ maxWord
  dataLength_le : sheet.dataLength ≤ maxWord
  /-- The offset of the last header fits a handle. -/
  headerLength_le : sheet.headerLength ≤ maxWord + 12
  handleCapacity_le : sheet.handleCapacity ≤ 8 * maxWord
  headerCapacity_le : sheet.headerCapacity ≤ 4 * maxWord

/-- With areas of such lengths, nothing comes near the bound on growth. -/
theorem Sized.usedEnd_le {sheet : Sheet} (sized : sheet.Sized) : sheet.usedEnd ≤ 13 * maxWord := by
  have handles := sized.handleCapacity_le
  have headers := sized.headerCapacity_le
  have data := sized.dataLength_le
  unfold usedEnd dataStart
  omega

theorem Sized.handle_le {sheet : Sheet} (sized : sheet.Sized) {id : Nat}
    (known : id < sheet.regionCount) : id * 4 + 4 ≤ sheet.handleCapacity := by
  have handles := sized.handles_le
  omega

theorem handleCapacity_le_usedEnd (sheet : Sheet) : sheet.handleCapacity ≤ sheet.usedEnd := by
  unfold usedEnd dataStart
  omega

theorem Sized.headers_le_usedEnd {sheet : Sheet} (sized : sheet.Sized) :
    sheet.handleCapacity + sheet.headerLength ≤ sheet.usedEnd := by
  have headers := sized.headers_le
  unfold usedEnd dataStart
  omega

/-- The areas of a sheet show a list of slots, in the order of their headers. -/
structure Holds (sheet : Sheet) (slots : List Slot) : Prop where
  sized : sheet.Sized
  packed : Packed slots sheet.regionCount sheet.dataLength
  headerLength_eq : sheet.headerLength = slots.length * 12
  handle_eq : ∀ {k : Nat} {slot : Slot}, slots[k]? = some slot →
    sheet.handleOf slot.id = UInt32.ofNat (k * 12)
  closed_eq : ∀ {id : Nat}, id < sheet.regionCount → (∀ slot ∈ slots, slot.id ≠ id) →
    sheet.handleOf id = emptyHandle
  header_eq : ∀ {k : Nat} {slot : Slot}, slots[k]? = some slot →
    sheet.headerAt (k * 12) = slot.header
  data_eq : ∀ slot ∈ slots, sheet.dataAt slot.offset slot.content.size = slot.content

/-- A sheet without regions. -/
def blank (tape : Tape UInt8) : Sheet := ⟨tape, 0, 0, 0, 0, 0⟩

theorem holds_blank (tape : Tape UInt8) : (blank tape).Holds [] where
  sized := by constructor <;> exact Nat.zero_le _
  packed := Packed.nil 0
  headerLength_eq := rfl
  handle_eq found := by simp at found
  closed_eq below := by cases below
  header_eq found := by simp at found
  data_eq slot mem := by cases mem

variable {sheet : Sheet} {slots : List Slot}

/-! ## What is found of a region -/

theorem Holds.lt_length (holds : sheet.Holds slots) {k : Nat} {slot : Slot}
    (found : slots[k]? = some slot) : k * 12 + 12 ≤ sheet.headerLength := by
  have inside := (List.getElem?_eq_some_iff.1 found).1
  rw [holds.headerLength_eq]
  omega

theorem Holds.exists_slot (holds : sheet.Holds slots) {k : Nat}
    (inside : k * 12 + 12 ≤ sheet.headerLength) : ∃ slot, slots[k]? = some slot := by
  rw [holds.headerLength_eq] at inside
  exact ⟨_, List.getElem?_eq_getElem (by omega)⟩

/-- The offset of a header fits a handle. -/
theorem Holds.toNat_handle (holds : sheet.Holds slots) {k : Nat} {slot : Slot}
    (found : slots[k]? = some slot) : (UInt32.ofNat (k * 12)).toNat = k * 12 := by
  have inside := holds.lt_length found
  have small := holds.sized.headerLength_le
  exact toNat_word (by omega)

/-- No header is where the handle of a region without one points to, since that is not a multiple
of the width of a header. -/
theorem handle_ne_empty {offset : Nat} (small : offset * 12 ≤ maxWord) :
    UInt32.ofNat (offset * 12) ≠ emptyHandle := by
  intro same
  have value := congrArg UInt32.toNat same
  rw [toNat_word small] at value
  have whole : emptyHandle.toNat = 4294967295 := rfl
  omega

theorem Holds.small_slot (holds : sheet.Holds slots) {slot : Slot} (mem : slot ∈ slots) :
    slot.offset ≤ maxWord ∧ slot.content.size ≤ maxWord ∧ slot.stop ≤ maxWord := by
  have inside := holds.packed.stop_le slot mem
  have small := holds.sized.dataLength_le
  unfold Slot.stop at *
  omega

theorem Holds.toNat_header (holds : sheet.Holds slots) {slot : Slot} (mem : slot ∈ slots) :
    slot.header.dataOffset.toNat = slot.offset ∧
      slot.header.dataLength.toNat = slot.content.size ∧
      slot.header.count.toNat = slot.items ∧ slot.header.dataEnd = slot.stop := by
  obtain ⟨offset, size, -⟩ := holds.small_slot mem
  have items := holds.packed.items_le slot mem
  unfold Header.dataEnd Slot.header
  simp only [toNat_word offset, toNat_word size, toNat_word items, Slot.stop, and_self]

/-! ## The areas grow -/

theorem Holds.growHandles (holds : sheet.Holds slots) {needed : Nat}
    (small : needed ≤ 4 * maxWord) : (sheet.growHandles needed).Holds slots := by
  have sized := holds.sized
  have handles := sized.handles_le
  unfold Sheet.growHandles
  split
  · exact holds
  · rename_i short
    have capacity : sheet.handleCapacity ≤ max needed (sheet.handleCapacity * 2) := by omega
    -- The handles stay where they are; all that is behind them moves as one stretch.
    have handle {id : Nat} (known : id < sheet.regionCount) :
        (sheet.tape.move sheet.handleCapacity (sheet.headerCapacity + sheet.dataLength)
          (max needed (sheet.handleCapacity * 2))).read UInt32 (handleOffset id) =
        sheet.handleOf id := by
      refine Tape.read_move_of_disjoint _ (.inl ?_)
      rw [width_handle, handleOffset_eq]
      omega
    refine { holds with
      sized := { sized with handles_le := ?_, handleCapacity_le := ?_ }
      handle_eq := fun found => ?_
      closed_eq := fun known closed => ?_
      header_eq := fun found => ?_
      data_eq := fun slot mem => ?_ }
    · show sheet.regionCount * 4 ≤ max needed (sheet.handleCapacity * 2)
      omega
    · show max needed (sheet.handleCapacity * 2) ≤ 8 * maxWord
      omega
    · have known := holds.packed.id_lt _ (List.mem_of_getElem? found)
      exact (handle known).trans (holds.handle_eq found)
    · exact (handle known).trans (holds.closed_eq known closed)
    · -- Header and data areas keep their distance from the start of the stretch that moves.
      have inside := holds.lt_length found
      have room := sized.headers_le
      rw [← holds.header_eq found]
      exact Tape.read_move _ _ _ (by rw [width_header]; omega)
    · have inside := holds.packed.stop_le slot mem
      unfold Slot.stop at inside
      refine Eq.trans ?_ (holds.data_eq slot mem)
      simp only [dataAt, dataStart, Nat.add_assoc]
      exact Tape.stretch_move _ _ _ (by omega)

theorem le_growHandles (needed : Nat) : needed ≤ (sheet.growHandles needed).handleCapacity := by
  unfold Sheet.growHandles
  split
  · assumption
  · exact Nat.le_max_left _ _

theorem growHandles_fields (needed : Nat) :
    (sheet.growHandles needed).regionCount = sheet.regionCount ∧
    (sheet.growHandles needed).dataLength = sheet.dataLength := by
  unfold Sheet.growHandles
  split <;> exact ⟨rfl, rfl⟩

theorem Holds.growHeaders (holds : sheet.Holds slots) {needed : Nat}
    (small : needed ≤ 2 * maxWord) : (sheet.growHeaders needed).Holds slots := by
  have sized := holds.sized
  have headers := sized.headers_le
  unfold Sheet.growHeaders
  split
  · exact holds
  · rename_i short
    have behind : sheet.headerCapacity ≤ max needed (sheet.headerCapacity * 2) := by omega
    -- Only the data moves, behind the longer header area.
    have handle {id : Nat} (known : id < sheet.regionCount) :
        (sheet.tape.move sheet.dataStart sheet.dataLength
          (sheet.handleCapacity + max needed (sheet.headerCapacity * 2))).read UInt32
            (handleOffset id) = sheet.handleOf id := by
      have handles := sized.handles_le
      refine Tape.read_move_of_disjoint _ (.inl ?_)
      rw [width_handle, handleOffset_eq]
      omega
    refine { holds with
      sized := { sized with headers_le := ?_, headerCapacity_le := ?_ }
      handle_eq := fun found => ?_
      closed_eq := fun known closed => (handle known).trans (holds.closed_eq known closed)
      header_eq := fun found => ?_
      data_eq := fun slot mem => ?_ }
    · exact Nat.le_trans headers behind
    · show max needed (sheet.headerCapacity * 2) ≤ 4 * maxWord
      omega
    · have known := holds.packed.id_lt _ (List.mem_of_getElem? found)
      exact (handle known).trans (holds.handle_eq found)
    · have inside := holds.lt_length found
      refine Eq.trans ?_ (holds.header_eq found)
      refine Tape.read_move_of_disjoint _ (.inl ?_)
      rw [width_header]
      simp only
      omega
    · have inside := holds.packed.stop_le slot mem
      refine Eq.trans ?_ (holds.data_eq slot mem)
      exact Tape.stretch_move _ _ _ inside

theorem le_growHeaders (needed : Nat) : needed ≤ (sheet.growHeaders needed).headerCapacity := by
  unfold Sheet.growHeaders
  split
  · assumption
  · exact Nat.le_max_left _ _

/-! ## New regions -/

theorem Holds.addRegion (holds : sheet.Holds slots) (small : sheet.regionCount + 1 ≤ maxWord) :
    sheet.addRegion.Holds slots ∧ sheet.addRegion.regionCount = sheet.regionCount + 1 ∧
      sheet.addRegion.dataLength = sheet.dataLength := by
  have needed : (sheet.regionCount + 1) * handleSize ≤ 4 * maxWord := by
    rw [handleSize_eq]
    omega
  have grown := holds.growHandles needed
  have room := sheet.le_growHandles ((sheet.regionCount + 1) * handleSize)
  obtain ⟨regionCount, dataLength⟩ := sheet.growHandles_fields
    ((sheet.regionCount + 1) * handleSize)
  unfold Sheet.addRegion
  generalize sheet.growHandles ((sheet.regionCount + 1) * handleSize) = wide at *
  rw [handleSize_eq] at room
  have inside : sheet.regionCount * 4 + 4 ≤ wide.handleCapacity := by omega
  have old {id : Nat} (known : id < wide.regionCount) : id ≠ sheet.regionCount := by omega
  refine ⟨?_, rfl, dataLength⟩
  refine { grown with
    sized := { grown.sized with handles_le := room, regionCount_le := small }
    packed := regionCount ▸ grown.packed.add_region
    handle_eq := fun {k slot} found => ?_
    closed_eq := fun {id} known closed => ?_
    header_eq := fun {k slot} found => ?_
    data_eq := fun slot mem => ?_ }
  · have known := grown.packed.id_lt _ (List.mem_of_getElem? found)
    exact (handleOf_putHandle_of_ne (old known)).trans (grown.handle_eq found)
  · -- The new region is closed, and of the old ones the handles are as before.
    by_cases new : id = sheet.regionCount
    · rw [new, handleOf_putHandle]
    · have known' : id < wide.regionCount := by
        have below : id < sheet.regionCount + 1 := known
        omega
      exact (handleOf_putHandle_of_ne new).trans (grown.closed_eq known' closed)
  · exact (headerAt_putHandle inside).trans (grown.header_eq found)
  · exact (dataAt_putHandle inside).trans (grown.data_eq slot mem)

/-! ## Bytes stored in place -/

theorem handleOf_storeByte {id offset : Nat} {value : UInt8}
    (h : id * 4 + 4 ≤ sheet.handleCapacity) :
    (sheet.storeByte offset value).handleOf id = sheet.handleOf id := by
  refine Tape.read_put _ (.inl ?_)
  simp only [width_handle, handleOffset_eq, dataStart]
  omega

theorem headerAt_storeByte {place offset : Nat} {value : UInt8}
    (h : place + 12 ≤ sheet.headerCapacity) :
    (sheet.storeByte offset value).headerAt place = sheet.headerAt place := by
  refine Tape.read_put _ (.inl ?_)
  simp only [width_header, dataStart, storeByte]
  omega

theorem Holds.storeByte (holds : sheet.Holds slots) {target : Slot} (mem_target : target ∈ slots)
    {index : Nat} (inside : index < target.content.size) (value : UInt8) :
    (sheet.storeByte (target.offset + index) value).Holds
      (slots.map (·.store target.id index value)) := by
  refine { holds with
    sized := { holds.sized with }
    packed := holds.packed.edit (fun slot => slot.id_store _ _ _)
      (fun slot => slot.items_store _ _ _) (fun slot => slot.offset_store _ _ _)
      fun slot => slot.stop_store _ _ _
    headerLength_eq := by rw [List.length_map]; exact holds.headerLength_eq
    handle_eq := fun {k _} found => ?_
    closed_eq := fun below free => ?_
    header_eq := fun {k _} found => ?_
    data_eq := List.forall_mem_map.2 fun slot mem => ?_ }
  · rw [List.getElem?_map, Option.map_eq_some_iff] at found
    obtain ⟨slot, found, rfl⟩ := found
    have known := holds.packed.id_lt _ (List.mem_of_getElem? found)
    rw [Slot.id_store, handleOf_storeByte (holds.sized.handle_le known)]
    exact holds.handle_eq found
  · rw [handleOf_storeByte (holds.sized.handle_le below)]
    refine holds.closed_eq below fun slot mem taken => ?_
    exact free _ (List.mem_map_of_mem mem) ((slot.id_store _ _ _).trans taken)
  · rw [List.getElem?_map, Option.map_eq_some_iff] at found
    obtain ⟨slot, found, rfl⟩ := found
    have last := holds.lt_length found
    have headers := holds.sized.headers_le
    rw [Slot.header_store, headerAt_storeByte (by omega)]
    exact holds.header_eq found
  · -- The byte lies in the target's range, and no other slot's range has it.
    by_cases own : slot.id = target.id
    · obtain rfl := holds.packed.eq_of_id mem mem_target own
      have data := holds.data_eq slot mem
      unfold dataAt at data
      rw [Slot.store, if_pos rfl]
      simp only [Array.size_setIfInBounds]
      refine Eq.trans ?_ (congrArg (Array.setIfInBounds · index value) data)
      simp only [dataAt, Sheet.storeByte, ← Nat.add_assoc]
      exact Tape.stretch_put_singleton _ _ _ _ _
    · have apart := holds.packed.apart slot mem target mem_target own
      unfold Slot.Apart Slot.stop at apart
      rw [Slot.store, if_neg own]
      refine Eq.trans ?_ (holds.data_eq slot mem)
      refine Tape.stretch_put_of_disjoint _ ?_
      simp only [Sheet.storeByte, dataStart, List.size_toArray, List.length_singleton]
      omega

end PooledBuffers.Regions.Sheet
