import PooledBuffers.Proofs.Regions.Holds

/-!
# Taking a region's bytes out

* `Sheet.Holds.remove` — the bytes and the header of a slot are taken out; the slots and headers
  behind them move down, and the headers and handles follow them.
-/

namespace PooledBuffers.Regions

open RegionStore (maxWord handleOffset)

variable {sheet : Sheet} {slots : List Slot}

/-! ## What is read after the steps -/

namespace Sheet

variable {id offset count : Nat} {handle : UInt32} {removed : Header}

theorem handleOf_closeGap {start length : Nat} (h : id * 4 + 4 ≤ sheet.handleCapacity) :
    (sheet.closeGap start length).handleOf id = sheet.handleOf id := by
  refine Tape.read_move_of_disjoint _ (.inl ?_)
  simp only [width_handle, handleOffset_eq, dataStart]
  omega

theorem headerAt_closeGap {start length : Nat} (h : offset + 12 ≤ sheet.headerCapacity) :
    (sheet.closeGap start length).headerAt offset = sheet.headerAt offset := by
  refine Tape.read_move_of_disjoint _ (.inl ?_)
  simp only [width_header, dataStart, closeGap]
  omega

theorem dataAt_closeGap_of_le {start length : Nat} (h : offset + count ≤ start) :
    (sheet.closeGap start length).dataAt offset count = sheet.dataAt offset count := by
  refine Tape.stretch_move_of_disjoint _ (.inl ?_)
  simp only [dataStart, closeGap]
  omega

/-- The data behind the gap is found further down by its length. -/
theorem dataAt_closeGap_of_ge {start length : Nat} (behind : start ≤ offset)
    (h : offset + length + count ≤ sheet.dataLength) :
    (sheet.closeGap start length).dataAt offset count = sheet.dataAt (offset + length) count := by
  have inside : offset - start + count ≤ sheet.usedEnd - (sheet.dataStart + start + length) := by
    unfold usedEnd
    omega
  have moved := sheet.tape.stretch_move (sheet.dataStart + start + length)
    (sheet.dataStart + start) inside
  have source : sheet.dataStart + start + length + (offset - start) =
      sheet.dataStart + (offset + length) := by omega
  have target : sheet.dataStart + start + (offset - start) = sheet.dataStart + offset := by omega
  rw [source, target] at moved
  exact moved

@[simp] theorem closeGap_zero (sheet : Sheet) (start : Nat) : sheet.closeGap start 0 = sheet := by
  unfold closeGap
  simp only [Nat.add_zero, Tape.move_self, Nat.sub_zero]

theorem handleOf_lowerOthers (h : id * 4 + 4 ≤ sheet.handleCapacity) :
    (sheet.lowerOthers handle removed).handleOf id = sheet.handleOf id := by
  unfold lowerOthers
  split
  · rfl
  · exact handleOf_updateOthers h

theorem headerAt_lowerOthers {k : Nat} (h : k * 12 + 12 ≤ sheet.headerLength)
    (other : k * 12 ≠ handle.toNat) :
    (sheet.lowerOthers handle removed).headerAt (k * 12) =
      (sheet.headerAt (k * 12)).lower removed.dataEnd removed.dataLength := by
  unfold lowerOthers
  split
  · rename_i empty
    rw [empty, Header.lower_zero]
  · rw [headerAt_updateOthers h, if_neg other]

theorem dataAt_lowerOthers (h : sheet.headerLength ≤ sheet.headerCapacity) :
    (sheet.lowerOthers handle removed).dataAt offset count = sheet.dataAt offset count := by
  unfold lowerOthers
  split
  · rfl
  · exact dataAt_updateOthers h

theorem removeData_fields (sheet : Sheet) (handle : UInt32) (removed : Header) :
    ∃ tape, sheet.removeData handle removed =
      { sheet with
        tape := tape
        dataLength := sheet.dataLength - removed.dataLength.toNat } := by
  unfold removeData lowerOthers
  split
  · exact ⟨_, rfl⟩
  · exact ⟨_, rfl⟩

theorem handleOf_closeHeaders (h : id * 4 + 4 ≤ sheet.handleCapacity) :
    (sheet.closeHeaders offset).handleOf id = sheet.handleOf id := by
  refine Tape.read_move_of_disjoint _ (.inl ?_)
  simp only [width_handle, handleOffset_eq]
  omega

theorem headerAt_closeHeaders_of_lt {place : Nat} (h : place + 12 ≤ offset) :
    (sheet.closeHeaders offset).headerAt place = sheet.headerAt place := by
  refine Tape.read_move_of_disjoint _ (.inl ?_)
  simp only [width_header, closeHeaders]
  omega

theorem headerAt_closeHeaders_of_ge {place : Nat} (behind : offset ≤ place)
    (h : place + 24 ≤ sheet.headerLength) :
    (sheet.closeHeaders offset).headerAt place = sheet.headerAt (place + 12) := by
  have inside : place - offset + Layout.width Header ≤
      sheet.handleCapacity + sheet.headerLength - (sheet.handleCapacity + offset + headerSize) := by
    simp only [width_header, headerSize_eq]
    omega
  have moved := sheet.tape.read_move (sheet.handleCapacity + offset + headerSize)
    (sheet.handleCapacity + offset) inside
  have source : sheet.handleCapacity + offset + headerSize + (place - offset) =
      sheet.handleCapacity + (place + 12) := by
    rw [headerSize_eq]
    omega
  have target : sheet.handleCapacity + offset + (place - offset) =
      sheet.handleCapacity + place := by omega
  rw [source, target] at moved
  exact moved

theorem dataAt_closeHeaders {place : Nat} (inside : place + 12 ≤ sheet.headerLength)
    (room : sheet.headerLength ≤ sheet.headerCapacity) :
    (sheet.closeHeaders place).dataAt offset count = sheet.dataAt offset count := by
  refine Tape.stretch_move_of_disjoint _ (.inr ?_)
  simp only [headerSize_eq, dataStart, closeHeaders]
  omega

/-! ## What is read after all of them -/

theorem remove_fields (sheet : Sheet) (id : Nat) (handle : UInt32) (removed : Header) :
    ∃ tape, sheet.remove id handle removed =
      { sheet with
        tape := tape
        headerLength := sheet.headerLength - 12
        dataLength := sheet.dataLength - removed.dataLength.toNat } := by
  obtain ⟨tape, fields⟩ := sheet.removeData_fields handle removed
  rw [remove, fields]
  exact ⟨_, rfl⟩

section Remove

variable (sized : sheet.Sized)

include sized

theorem Sized.removeData : (sheet.removeData handle removed).Sized := by
  obtain ⟨tape, fields⟩ := sheet.removeData_fields handle removed
  rw [fields]
  exact { sized with dataLength_le := Nat.le_trans (Nat.sub_le _ _) sized.dataLength_le }

theorem Sized.remove : (sheet.remove id handle removed).Sized := by
  obtain ⟨tape, fields⟩ := sheet.remove_fields id handle removed
  rw [fields]
  refine { sized with headers_le := ?_, dataLength_le := ?_, headerLength_le := ?_ }
  · exact Nat.le_trans (Nat.sub_le _ _) sized.headers_le
  · exact Nat.le_trans (Nat.sub_le _ _) sized.dataLength_le
  · exact Nat.le_trans (Nat.sub_le _ _) sized.headerLength_le

/-- Taking the data out leaves the handles alone, so that they still are what the slots say. -/
theorem handleOf_removeData (below : id < sheet.regionCount) :
    (sheet.removeData handle removed).handleOf id = sheet.handleOf id := by
  have front := sized.handle_le below
  rw [removeData, handleOf_lowerOthers, handleOf_closeGap front]
  exact front

theorem handleOf_remove {other : Nat} (below : other < sheet.regionCount) (different : other ≠ id) :
    (sheet.remove id handle removed).handleOf other =
      if sheet.handleOf other ≠ emptyHandle ∧ handle < sheet.handleOf other then
        sheet.handleOf other - UInt32.ofNat headerSize
      else sheet.handleOf other := by
  have front := sized.handle_le below
  obtain ⟨tape, fields⟩ := sheet.removeData_fields handle removed
  have kept : ((sheet.removeData handle removed).closeHeaders handle.toNat).handleOf other =
      sheet.handleOf other := by
    rw [handleOf_closeHeaders (by rw [fields]; exact front), handleOf_removeData sized below]
  unfold remove removeHeader
  rw [handleOf_putHandle_of_ne different, handleOf_lowerHandles (by rw [fields]; exact below), kept]

theorem headerAt_removeData {j : Nat} (inside : j * 12 + 12 ≤ sheet.headerLength)
    (other : j * 12 ≠ handle.toNat) :
    (sheet.removeData handle removed).headerAt (j * 12) =
      (sheet.headerAt (j * 12)).lower removed.dataEnd removed.dataLength := by
  have headers := sized.headers_le
  rw [removeData, headerAt_lowerOthers _ other, headerAt_closeGap (by omega)]
  exact inside

variable (known : id < sheet.regionCount)

include known

theorem headerAt_remove :
    (sheet.remove id handle removed).headerAt offset =
      ((sheet.removeData handle removed).closeHeaders handle.toNat).headerAt offset := by
  obtain ⟨tape, fields⟩ := sheet.removeData_fields handle removed
  unfold remove removeHeader
  rw [headerAt_putHandle, headerAt_lowerHandles] <;> rw [fields]
  · exact sized.handles_le
  · exact sized.handle_le known

theorem headerAt_remove_of_lt {j k : Nat} (own : handle.toNat = k * 12) (before : j < k)
    (inside : k * 12 + 12 ≤ sheet.headerLength) :
    (sheet.remove id handle removed).headerAt (j * 12) =
      (sheet.headerAt (j * 12)).lower removed.dataEnd removed.dataLength := by
  rw [headerAt_remove sized known, headerAt_closeHeaders_of_lt (by omega),
    headerAt_removeData sized (by omega) (by omega)]

theorem headerAt_remove_of_ge {j k : Nat} (own : handle.toNat = k * 12) (behind : k ≤ j)
    (inside : j * 12 + 24 ≤ sheet.headerLength) :
    (sheet.remove id handle removed).headerAt (j * 12) =
      (sheet.headerAt ((j + 1) * 12)).lower removed.dataEnd removed.dataLength := by
  obtain ⟨tape, fields⟩ := sheet.removeData_fields handle removed
  have next : j * 12 + 12 = (j + 1) * 12 := by omega
  rw [headerAt_remove sized known, headerAt_closeHeaders_of_ge (by omega)
    (by rw [fields]; exact inside), next, headerAt_removeData sized (by omega) (by omega)]

theorem dataAt_remove (inside : handle.toNat + 12 ≤ sheet.headerLength) :
    (sheet.remove id handle removed).dataAt offset count =
      (sheet.closeGap removed.dataOffset.toNat removed.dataLength.toNat).dataAt offset count := by
  have headers := sized.headers_le
  obtain ⟨tape, fields⟩ := sheet.removeData_fields handle removed
  unfold remove removeHeader
  rw [dataAt_putHandle (by rw [fields]; exact sized.handle_le known),
    dataAt_lowerHandles (by rw [fields]; exact sized.handles_le),
    dataAt_closeHeaders (by rw [fields]; exact inside) (by rw [fields]; exact headers),
    removeData, dataAt_lowerOthers]
  exact headers

end Remove

end Sheet

/-! ## Removing a slot -/

theorem Slot.header_lower {slot : Slot} (small : slot.offset ≤ maxWord) {stop removed : Nat}
    (enough : removed ≤ stop) :
    (slot.lower stop removed).header = slot.header.lower stop (.ofNat removed) := by
  have offset : slot.header.dataOffset.toNat = slot.offset := toNat_word small
  unfold Slot.lower Header.lower
  rw [offset]
  split
  · rename_i behind
    simp only [Slot.header, UInt32.ofNat_sub (Nat.le_trans enough behind)]
  · rfl

/-- What is found once one slot is taken out. -/
theorem found_eraseIdx {f : Slot → Slot} {j k : Nat} {slot : Slot}
    (found : ((slots.eraseIdx k).map f)[j]? = some slot) :
    ∃ old, f old = slot ∧
      ((j < k ∧ slots[j]? = some old) ∨ (k ≤ j ∧ slots[j + 1]? = some old)) := by
  rw [List.getElem?_map, Option.map_eq_some_iff] at found
  obtain ⟨old, found, same⟩ := found
  refine ⟨old, same, ?_⟩
  rw [List.getElem?_eraseIdx] at found
  split at found
  · exact .inl ⟨‹_›, found⟩
  · exact .inr ⟨by omega, found⟩

section Remove

variable (holds : sheet.Holds slots) {k : Nat} {target : Slot} (at_target : slots[k]? = some target)

include holds at_target

/-- The handle of a region whose header is in front stays; one whose header is behind follows it. -/
theorem Sheet.Holds.handleOf_remove {slot : Slot} {j : Nat}
    (places : (j < k ∧ slots[j]? = some slot) ∨ (k ≤ j ∧ slots[j + 1]? = some slot)) :
    (sheet.remove target.id (.ofNat (k * 12)) target.header).handleOf slot.id =
      .ofNat (j * 12) := by
  have sized := holds.sized
  have handle := holds.toNat_handle at_target
  rcases places with ⟨before, found⟩ | ⟨behind, found⟩
  · have below := holds.packed.id_lt _ (List.mem_of_getElem? found)
    have different := holds.packed.id_ne found at_target (by omega)
    rw [Sheet.handleOf_remove sized below different, holds.handle_eq found, if_neg]
    rw [UInt32.lt_iff_toNat_lt, handle, holds.toNat_handle found]
    omega
  · have below := holds.packed.id_lt _ (List.mem_of_getElem? found)
    have different := holds.packed.id_ne found at_target (by omega)
    have last := holds.lt_length found
    have small := sized.headerLength_le
    rw [Sheet.handleOf_remove sized below different, holds.handle_eq found, if_pos]
    · rw [headerSize_eq, ← UInt32.ofNat_sub (by omega)]
      congr 1
      omega
    · refine ⟨handle_ne_empty (by omega), ?_⟩
      rw [UInt32.lt_iff_toNat_lt, handle, holds.toNat_handle found]
      omega

/-- A region that had no slot, or whose slot is the one taken out, has the empty handle. -/
theorem Sheet.Holds.handleOf_remove_closed {id : Nat} (known : id < sheet.regionCount)
    (free : ∀ slot ∈ slots.eraseIdx k, slot.id ≠ id) :
    (sheet.remove target.id (.ofNat (k * 12)) target.header).handleOf id = emptyHandle := by
  by_cases same : id = target.id
  · rw [same]
    exact handleOf_putHandle
  · have closed : ∀ slot ∈ slots, slot.id ≠ id := by
      intro slot mem taken
      exact free slot ((holds.packed.mem_eraseIdx at_target).2 ⟨mem, taken ▸ same⟩) taken
    -- The empty handle is the largest of all, but it is left out.
    rw [Sheet.handleOf_remove holds.sized known same, holds.closed_eq known closed,
      if_neg (fun both => both.1 rfl)]

/-- Another region's header tells where its slot is then. -/
theorem Sheet.Holds.headerAt_remove {slot : Slot} {j : Nat}
    (places : (j < k ∧ slots[j]? = some slot) ∨ (k ≤ j ∧ slots[j + 1]? = some slot)) :
    (sheet.remove target.id (.ofNat (k * 12)) target.header).headerAt (j * 12) =
      (slot.lower target.stop target.content.size).header := by
  have sized := holds.sized
  have mem_target : target ∈ slots := List.mem_of_getElem? at_target
  have known : target.id < sheet.regionCount := holds.packed.id_lt _ mem_target
  have handle : (UInt32.ofNat (k * 12)).toNat = k * 12 := holds.toNat_handle at_target
  have inside := holds.lt_length at_target
  obtain ⟨-, -, -, stop⟩ := holds.toNat_header mem_target
  have word : target.header.dataLength = .ofNat target.content.size := rfl
  have bounds : target.content.size ≤ target.stop := Nat.le_add_left _ _
  rcases places with ⟨before, found⟩ | ⟨behind, found⟩
  · rw [headerAt_remove_of_lt sized known handle before inside, holds.header_eq found, stop, word,
      Slot.header_lower (holds.small_slot (List.mem_of_getElem? found)).1 bounds]
  · have last := holds.lt_length found
    rw [headerAt_remove_of_ge sized known handle behind (by omega), holds.header_eq found, stop,
      word, Slot.header_lower (holds.small_slot (List.mem_of_getElem? found)).1 bounds]

/-- What is read of another region's slot once `target` is taken out. -/
theorem Sheet.Holds.dataAt_remove {slot : Slot} (mem : slot ∈ slots) (other : slot.id ≠ target.id) :
    (sheet.remove target.id (.ofNat (k * 12)) target.header).dataAt
        (slot.lower target.stop target.content.size).offset slot.content.size = slot.content := by
  have mem_target : target ∈ slots := List.mem_of_getElem? at_target
  have inside := holds.lt_length at_target
  have last := holds.packed.stop_le slot mem
  obtain ⟨start, length, -, -⟩ := holds.toNat_header mem_target
  rw [← holds.toNat_handle at_target] at inside
  rw [Sheet.dataAt_remove holds.sized (holds.packed.id_lt _ mem_target) inside, start, length]
  rcases holds.packed.range_lower mem_target mem other with
    ⟨behind, offset, -⟩ | ⟨-, before, offset, -⟩
  · rw [dataAt_closeGap_of_ge, offset]
    · exact holds.data_eq slot mem
    · unfold Slot.stop at behind
      omega
    · rw [offset]
      exact last
  · rw [offset, dataAt_closeGap_of_le before]
    exact holds.data_eq slot mem

theorem Sheet.Holds.remove :
    (sheet.remove target.id (.ofNat (k * 12)) target.header).Holds
      ((slots.eraseIdx k).map (·.lower target.stop target.content.size)) := by
  obtain ⟨-, length, -, -⟩ := holds.toNat_header (List.mem_of_getElem? at_target)
  obtain ⟨tape, fields⟩ := sheet.remove_fields target.id (.ofNat (k * 12)) target.header
  refine {
    sized := holds.sized.remove
    packed := ?_
    headerLength_eq := ?_
    handle_eq := fun {j _} found => ?_
    closed_eq := fun {other} below free => ?_
    header_eq := fun {j _} found => ?_
    data_eq := List.forall_mem_map.2 fun slot mem => ?_ }
  · have packed := holds.packed.remove at_target
    rw [fields, length]
    exact packed
  · have some_slot := (List.getElem?_eq_some_iff.1 at_target).1
    rw [fields, List.length_map, List.length_eraseIdx_of_lt some_slot]
    show sheet.headerLength - 12 = (slots.length - 1) * 12
    rw [holds.headerLength_eq]
    omega
  · obtain ⟨slot, rfl, places⟩ := found_eraseIdx found
    rw [Slot.id_lower]
    exact holds.handleOf_remove at_target places
  · rw [fields] at below
    refine holds.handleOf_remove_closed at_target below fun slot mem taken => ?_
    exact free _ (List.mem_map_of_mem mem) ((Slot.id_lower _ _ _).trans taken)
  · obtain ⟨slot, rfl, places⟩ := found_eraseIdx found
    exact holds.headerAt_remove at_target places
  · obtain ⟨mem, other⟩ := (holds.packed.mem_eraseIdx at_target).1 mem
    rw [Slot.content_lower]
    exact holds.dataAt_remove at_target mem other

end Remove

end PooledBuffers.Regions
