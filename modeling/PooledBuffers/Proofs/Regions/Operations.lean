import PooledBuffers.Proofs.Regions.Simulation

/-!
# The operations of a settled store

What a store answers and shows after each operation, in terms of the slots of its sheet, and that
none of the bounds it relies on is missed.
-/

namespace PooledBuffers.RegionStore

open PooledBuffers.Regions

variable {store : RegionStore} {pool : Pool UInt8} {sheet : Sheet} {length : Nat}
variable {slots : List Slot}

namespace Shows

/-! ## Looking a region up -/

theorem find_unknown (shows : Shows (store, pool) sheet length) {id : Nat}
    (unknown : sheet.regionCount ≤ id) :
    store.header? id = .error (.regionNotFound id) ∧ store.checkFind id = .ok () := by
  obtain ⟨regions, -⟩ := shows.fields
  unfold RegionStore.header? checkFind
  rw [regions, if_pos unknown, if_pos unknown]
  exact ⟨rfl, rfl⟩

theorem find_closed (shows : Shows (store, pool) sheet sheet.usedEnd) (holds : sheet.Holds slots)
    {id : Nat} (known : id < sheet.regionCount) (closed : ∀ slot ∈ slots, slot.id ≠ id) :
    store.header? id = .ok none ∧ store.checkFind id = .ok () := by
  obtain ⟨regions, -⟩ := shows.fields
  have inside : id * 4 + 4 ≤ sheet.usedEnd :=
    Nat.le_trans (holds.sized.handle_le known) sheet.handleCapacity_le_usedEnd
  have handle := (shows.handleAt inside).trans (holds.closed_eq known closed)
  unfold RegionStore.header? checkFind
  have below := Nat.not_le.2 known
  rw [regions, if_neg below, if_neg below, handle]
  refine ⟨if_pos rfl, ?_⟩
  rw [check_bind (shows.checkHandle inside)]
  exact if_neg (fun other => other rfl)

theorem find_open (shows : Shows (store, pool) sheet sheet.usedEnd) (holds : sheet.Holds slots)
    {k : Nat} {slot : Slot} (found : slots[k]? = some slot) :
    store.header? slot.id = .ok (some (.ofNat (k * 12), slot.header)) ∧
      store.checkFind slot.id = .ok () := by
  obtain ⟨regions, -⟩ := shows.fields
  have known := holds.packed.id_lt slot (List.mem_of_getElem? found)
  have headers := holds.sized.headers_le_usedEnd
  have offset := holds.toNat_handle found
  have last := holds.lt_length found
  have inside : slot.id * 4 + 4 ≤ sheet.usedEnd :=
    Nat.le_trans (holds.sized.handle_le known) sheet.handleCapacity_le_usedEnd
  have front : sheet.handleCapacity + (UInt32.ofNat (k * 12)).toNat + 12 ≤ sheet.usedEnd := by
    omega
  have small := holds.sized.headerLength_le
  have used : UInt32.ofNat (k * 12) ≠ emptyHandle := Sheet.handle_ne_empty (by omega)
  have handle := (shows.handleAt inside).trans (holds.handle_eq found)
  have header : store.headerAt (UInt32.ofNat (k * 12)).toNat = slot.header := by
    rw [shows.headerAt front, offset]
    exact holds.header_eq found
  unfold RegionStore.header? checkFind
  have below := Nat.not_le.2 known
  rw [regions, if_neg below, if_neg below, handle]
  simp only [if_neg used, header]
  refine ⟨trivial, ?_⟩
  rw [check_bind (shows.checkHandle inside), if_pos used]
  exact shows.checkHeader front

/-! ## What a region reads back -/

theorem reads_unknown (shows : Shows (store, pool) sheet length) {id : Nat}
    (unknown : sheet.regionCount ≤ id) :
    store.span id = .error (.regionNotFound id) ∧
      store.spanLength id = .error (.regionNotFound id) ∧
      store.itemCount id = .error (.regionNotFound id) ∧ store.checkSpan id = .ok () := by
  obtain ⟨found, looked⟩ := shows.find_unknown unknown
  unfold RegionStore.span RegionStore.spanLength RegionStore.itemCount checkSpan RegionStore.range
  rw [found, check_bind looked]
  exact ⟨rfl, rfl, rfl, rfl⟩

theorem reads_closed (shows : Shows (store, pool) sheet sheet.usedEnd) (holds : sheet.Holds slots)
    {id : Nat} (known : id < sheet.regionCount) (closed : ∀ slot ∈ slots, slot.id ≠ id) :
    store.span id = .ok #[] ∧ store.spanLength id = .ok 0 ∧ store.itemCount id = .ok 0 ∧
      store.checkSpan id = .ok () := by
  obtain ⟨found, looked⟩ := shows.find_closed holds known closed
  have none : store.writer.slice 0 (0 - 0) = #[] :=
    (shows.writer.slice_eq (Nat.zero_le _)).trans (Tape.stretch_zero _ _)
  have range : store.range id = .ok (0, 0) := by
    unfold RegionStore.range
    rw [found]
    rfl
  refine ⟨?_, ?_, ?_, ?_⟩
  · unfold RegionStore.span
    rw [range]
    exact congrArg Except.ok none
  · unfold RegionStore.spanLength
    rw [found]
    rfl
  · unfold RegionStore.itemCount
    rw [found]
    rfl
  · unfold checkSpan
    rw [check_bind looked, whenDone_ok range]
    exact shows.writer.checkStretch_eq_ok (Nat.zero_le _)

section Open

variable (shows : Shows (store, pool) sheet sheet.usedEnd) (holds : sheet.Holds slots)
  {slot : Slot} (mem : slot ∈ slots)

include shows holds mem

theorem range_open :
    store.range slot.id = .ok (sheet.dataStart + slot.offset,
      sheet.dataStart + slot.offset + slot.content.size) := by
  obtain ⟨k, at_slot⟩ := List.mem_iff_getElem?.1 mem
  obtain ⟨offset, length, -⟩ := holds.toNat_header mem
  have start : store.dataStart = sheet.dataStart := congrArg Sheet.dataStart shows.sheet_eq
  unfold RegionStore.range
  rw [(shows.find_open holds at_slot).1, ← offset, ← length, ← start]
  rfl

theorem reads_open :
    store.span slot.id = .ok slot.content ∧ store.spanLength slot.id = .ok slot.content.size ∧
      store.itemCount slot.id = .ok slot.items ∧ store.checkSpan slot.id = .ok () := by
  obtain ⟨k, at_slot⟩ := List.mem_iff_getElem?.1 mem
  obtain ⟨found, looked⟩ := shows.find_open holds at_slot
  obtain ⟨-, length, items, -⟩ := holds.toNat_header mem
  have range := shows.range_open holds mem
  have last := holds.packed.stop_le slot mem
  have inside : sheet.dataStart + slot.offset + slot.content.size ≤ sheet.usedEnd := by
    unfold Slot.stop at last
    unfold Sheet.usedEnd
    omega
  have width : sheet.dataStart + slot.offset + slot.content.size -
      (sheet.dataStart + slot.offset) = slot.content.size := Nat.add_sub_cancel_left _ _
  refine ⟨?_, ?_, ?_, ?_⟩
  · have read := (shows.writer.slice_eq inside).trans (holds.data_eq slot mem)
    unfold RegionStore.span
    rw [range]
    show Except.ok (store.writer.slice _ (_ - _)) = _
    rw [width, read]
  · unfold RegionStore.spanLength
    rw [found, ← length]
    rfl
  · unfold RegionStore.itemCount
    rw [found, ← items]
    rfl
  · unfold checkSpan
    rw [check_bind looked, whenDone_ok range]
    simp only
    rw [check_bind (demand_eq_ok (by omega)), width]
    exact shows.writer.checkStretch_eq_ok inside

end Open

/-! ## Putting bytes in -/

theorem appendItems_long (store : RegionStore) (pool : Pool UInt8) (id items : Nat)
    {run : Array UInt8} (long : maxWord < run.size) :
    store.appendItems id run items pool =
        .error (.outOfRange "bytes.len()" run.size maxWord) ∧
      store.checkAppend id run items pool = .ok () := by
  constructor
  · unfold appendItems checkWord
    rw [if_pos long]
    rfl
  · unfold checkAppend
    exact if_neg (by omega)

theorem appendItems_full (shows : Shows (store, pool) sheet length) (id items : Nat)
    {run : Array UInt8} (short : run.size ≤ maxWord) (full : maxWord < sheet.dataLength + run.size)
    (sized : sheet.Sized) :
    store.appendItems id run items pool =
        .error (.outOfRange "data length" (sheet.dataLength + run.size) maxWord) ∧
      store.checkAppend id run items pool = .ok () := by
  obtain ⟨-, -, -, -, data⟩ := shows.fields
  have top : 2 * maxWord ≤ Size.top := by decide
  have small := sized.dataLength_le
  constructor
  · unfold appendItems checkWord
    rw [data, Size.add_eq (by omega), if_neg (by omega), if_pos full]
    rfl
  · unfold checkAppend
    rw [data]
    exact if_neg (by omega)

section Append

variable {run : Array UInt8} (small : sheet.dataLength + run.size ≤ maxWord)

include small

theorem appendItems_unknown (shows : Shows (store, pool) sheet length) {id : Nat}
    (unknown : sheet.regionCount ≤ id) (items : Nat) :
    store.appendItems id run items pool = .error (.regionNotFound id) ∧
      store.checkAppend id run items pool = .ok () := by
  obtain ⟨-, -, -, -, data⟩ := shows.fields
  obtain ⟨found, looked⟩ := shows.find_unknown unknown
  have locate : store.locate id pool = .error (.regionNotFound id) := by
    unfold RegionStore.locate
    rw [found]
    rfl
  constructor
  · rw [appendItems_eq (by omega) (data ▸ small), locate]
    rfl
  · unfold checkAppend checkLocate
    rw [data, if_pos (by omega), check_bind, locate]
    · rfl
    · rw [check_bind looked, found]
      rfl

theorem appendItems_open (shows : Shows (store, pool) sheet sheet.usedEnd)
    (holds : sheet.Holds slots) {k : Nat} {target : Slot} (at_target : slots[k]? = some target)
    (items : Nat) :
    ∃ next, store.appendItems target.id run items pool = .ok next ∧
      Settled next (sheet.insert (.ofNat (k * 12)) target.header run items) ∧
      store.checkAppend target.id run items pool = .ok () := by
  obtain ⟨-, -, -, -, data⟩ := shows.fields
  obtain ⟨found, looked⟩ := shows.find_open holds at_target
  obtain ⟨next, done, settled, safe⟩ := shows.insert holds at_target small items
  have locate : store.locate target.id pool =
      .ok ((.ofNat (k * 12), target.header), store, pool) := by
    unfold RegionStore.locate
    rw [found]
    rfl
  refine ⟨next, ?_, settled, ?_⟩
  · rw [appendItems_eq (by omega) (data ▸ small), locate]
    exact done
  · unfold checkAppend checkLocate
    rw [data, if_pos (by omega), check_bind, whenDone_ok locate]
    · exact safe
    · rw [check_bind looked, whenDone_ok found]

variable (shows : Shows (store, pool) sheet sheet.usedEnd) (holds : sheet.Holds slots) {id : Nat}
  (known : id < sheet.regionCount) (closed : ∀ slot ∈ slots, slot.id ≠ id)

include shows holds known closed

/-- The first bytes of a region go behind all others, into a slot of their own. -/
theorem appendItems_closed (headers : sheet.headerLength ≤ maxWord) (items : Nat) :
    ∃ next, store.appendItems id run items pool = .ok next ∧
      Settled next ((sheet.openRegion id).insert (.ofNat (slots.length * 12))
        (Slot.mk id sheet.dataLength #[] 0).header run items) ∧
      store.checkAppend id run items pool = .ok () := by
  obtain ⟨-, -, -, -, data⟩ := shows.fields
  obtain ⟨found, looked⟩ := shows.find_closed holds known closed
  obtain ⟨⟨opened, rest⟩, done, shown, safe⟩ := shows.openRegion holds known headers
  obtain ⟨-, total⟩ := sheet.openRegion_fields id
  have last : (slots ++ [Slot.mk id sheet.dataLength #[] 0])[slots.length]? =
      some ⟨id, sheet.dataLength, #[], 0⟩ := List.getElem?_concat_length
  obtain ⟨next, inserted, settled, safe'⟩ :=
    shown.insert (holds.openRegion known closed headers) last (total ▸ small) items
  have locate : store.locate id pool =
      .ok ((.ofNat (slots.length * 12), (Slot.mk id sheet.dataLength #[] 0).header),
        opened, rest) := by
    unfold RegionStore.locate
    rw [found, ← holds.headerLength_eq]
    exact done
  refine ⟨next, ?_, settled, ?_⟩
  · rw [appendItems_eq (by omega) (data ▸ small), locate]
    exact inserted
  · unfold checkAppend checkLocate
    rw [data, if_pos (by omega), check_bind, whenDone_ok locate]
    · exact safe'
    · rw [check_bind looked, whenDone_ok found]
      exact safe

theorem appendItems_headers (full : maxWord < sheet.headerLength) (items : Nat) :
    store.appendItems id run items pool =
        .error (.outOfRange "header offset" sheet.headerLength maxWord) ∧
      store.checkAppend id run items pool = .ok () := by
  obtain ⟨-, -, -, -, data⟩ := shows.fields
  obtain ⟨found, looked⟩ := shows.find_closed holds known closed
  obtain ⟨refused, safe⟩ := shows.openRegion_full holds full
  have locate : store.locate id pool =
      .error (.outOfRange "header offset" sheet.headerLength maxWord) := by
    unfold RegionStore.locate
    rw [found]
    exact refused
  constructor
  · rw [appendItems_eq (by omega) (data ▸ small), locate]
    rfl
  · unfold checkAppend checkLocate
    rw [data, if_pos (by omega), check_bind, locate]
    · rfl
    · rw [check_bind looked, whenDone_ok found]
      exact safe

end Append

/-! ## Taking bytes out -/

/-- Without bytes there is nothing to take out, and no header is touched. -/
theorem removeData_nothing (shows : Shows (store, pool) sheet sheet.usedEnd) (handle : UInt32)
    {removed : Header} (empty : removed.dataLength = 0)
    (inside : sheet.dataStart + removed.dataOffset.toNat ≤ sheet.usedEnd) :
    store.removeData handle removed pool = .ok (store, pool) ∧
      sheet.removeData handle removed = sheet ∧
      store.checkRemoveData handle removed pool = .ok () := by
  have start : store.dataStart = sheet.dataStart := congrArg Sheet.dataStart shows.sheet_eq
  have used : store.usedEnd = sheet.usedEnd := congrArg Sheet.usedEnd shows.sheet_eq
  have nothing : removed.dataLength.toNat = 0 := congrArg UInt32.toNat empty
  refine ⟨if_pos empty, ?_, ?_⟩
  · rw [Sheet.removeData, Sheet.lowerOthers, if_pos empty, nothing, Sheet.closeGap_zero]
  · unfold checkRemoveData
    rw [start, used, nothing]
    exact (check_bind (demand_eq_ok inside) _).trans (if_neg fun other => other empty)

/-- A header that moves down belongs to bytes behind those taken out, so that its offset is not less
than their number. -/
theorem le_lowered (holds : sheet.Holds slots) {target : Slot} (mem_target : target ∈ slots)
    {j : Nat} (below : j * 12 + 12 ≤ sheet.headerLength) :
    (if target.header.dataEnd ≤
        ((sheet.closeGap target.offset target.content.size).headerAt (j * 12)).dataOffset.toNat then
      demand target.content.size
        ((sheet.closeGap target.offset target.content.size).headerAt (j * 12)).dataOffset.toNat
    else Except.ok ()) = .ok () := by
  have room := holds.sized.headers_le
  obtain ⟨-, -, -, stop⟩ := holds.toNat_header mem_target
  obtain ⟨slot, found⟩ := holds.exists_slot below
  rw [Sheet.headerAt_closeGap (by omega), holds.header_eq found,
    (holds.toNat_header (List.mem_of_getElem? found)).1, stop]
  split
  · rename_i behind
    unfold Slot.stop at behind
    exact demand_eq_ok (by omega)
  · rfl

/-- What is behind a run of data moves down to its start. -/
theorem closeGap (shows : Shows (store, pool) sheet sheet.usedEnd) (sized : sheet.Sized)
    {start count tail : Nat} (tail_eq : tail = sheet.dataStart + start + count)
    (inside : start + count ≤ sheet.dataLength) :
    ∃ moved rest,
      store.move tail (sheet.usedEnd - tail) (sheet.dataStart + start) pool = .ok (moved, rest) ∧
      moved.dataLength = sheet.dataLength ∧ moved.headerLength = sheet.headerLength ∧
      Shows ({ moved with dataLength := moved.dataLength - count }, rest)
        (sheet.closeGap start count) sheet.usedEnd ∧
      store.writer.checkMove tail (sheet.usedEnd - tail) (sheet.dataStart + start) pool =
        .ok () := by
  subst tail_eq
  have far : 14 * maxWord ≤ Size.maxCapacity := by decide
  have small := sized.usedEnd_le
  have end_le : sheet.dataStart + start + count ≤ sheet.usedEnd := by
    unfold Sheet.usedEnd
    omega
  have source : sheet.dataStart + start + count +
      (sheet.usedEnd - (sheet.dataStart + start + count)) ≤ sheet.usedEnd := by omega
  have target : sheet.dataStart + start +
      (sheet.usedEnd - (sheet.dataStart + start + count)) ≤ Size.maxCapacity := by omega
  obtain ⟨⟨moved, rest⟩, done, shown, checked⟩ := shows.move source target
  obtain ⟨-, -, -, headers, data⟩ := shown.fields
  refine ⟨moved, rest, done, data, headers, ⟨shown.fits, shown.sound, ?_, ?_⟩, checked⟩
  · exact congrArg (fun old : Sheet => { old with dataLength := old.dataLength - count })
      shown.sheet_eq
  · exact Nat.le_trans (Nat.le_max_left _ _) shown.length_le

theorem removeData (shows : Shows (store, pool) sheet sheet.usedEnd) (holds : sheet.Holds slots)
    {k : Nat} {target : Slot} (at_target : slots[k]? = some target) :
    ∃ next, store.removeData (.ofNat (k * 12)) target.header pool = .ok next ∧
      Shows next (sheet.removeData (.ofNat (k * 12)) target.header)
        (sheet.removeData (.ofNat (k * 12)) target.header).usedEnd ∧
      store.checkRemoveData (.ofNat (k * 12)) target.header pool = .ok () := by
  have mem_target : target ∈ slots := List.mem_of_getElem? at_target
  obtain ⟨offset, length, -, -⟩ := holds.toNat_header mem_target
  have last : target.offset + target.content.size ≤ sheet.dataLength :=
    holds.packed.stop_le target mem_target
  have end_le : sheet.dataStart + target.offset + target.content.size ≤ sheet.usedEnd := by
    unfold Sheet.usedEnd
    omega
  by_cases empty : target.header.dataLength = 0
  · obtain ⟨done, same, checked⟩ :=
      shows.removeData_nothing (.ofNat (k * 12)) empty (by omega)
    rw [same]
    exact ⟨_, done, shows, checked⟩
  have start : store.dataStart = sheet.dataStart := congrArg Sheet.dataStart shows.sheet_eq
  have used : store.usedEnd = sheet.usedEnd := congrArg Sheet.usedEnd shows.sheet_eq
  obtain ⟨moved, rest, done, data, headers, closed, checked⟩ :=
    shows.closeGap holds.sized rfl last
  obtain ⟨lowered, safe⟩ := closed.updateOthers (.ofNat (k * 12))
    (·.lower target.header.dataEnd target.header.dataLength)
    (fun other =>
      if target.header.dataEnd ≤ other.dataOffset.toNat then
        demand target.content.size other.dataOffset.toNat
      else .ok ()) holds.sized.headers_le_usedEnd
    fun j below _ => le_lowered holds mem_target below
  have result : sheet.removeData (.ofNat (k * 12)) target.header =
      (sheet.closeGap target.offset target.content.size).updateOthers (.ofNat (k * 12))
        (·.lower target.header.dataEnd target.header.dataLength) := by
    rw [Sheet.removeData, Sheet.lowerOthers, if_neg empty, offset, length]
  rw [result]
  unfold RegionStore.removeData checkRemoveData
  rw [start, used, offset, length]
  refine ⟨_, ?_, lowered.mono ?_, ?_⟩
  · simp only [if_neg empty, done]
    rfl
  · show sheet.dataStart + (sheet.dataLength - target.content.size) ≤ _
    unfold Sheet.usedEnd
    omega
  · rw [check_bind (demand_eq_ok end_le), if_pos empty, check_bind checked, whenDone_ok done]
    simp only
    rw [check_bind (demand_eq_ok (by omega))]
    exact safe

/-- The headers behind a header move down to its place. -/
theorem closeHeaders (shows : Shows (store, pool) sheet sheet.usedEnd) (sized : sheet.Sized)
    {place behind : Nat} (behind_eq : behind = sheet.handleCapacity + place + headerSize)
    (inside : place + 12 ≤ sheet.headerLength) :
    let count := sheet.handleCapacity + sheet.headerLength - behind
    ∃ moved rest,
      store.move behind count (sheet.handleCapacity + place) pool = .ok (moved, rest) ∧
      moved.regionCount = sheet.regionCount ∧ moved.headerLength = sheet.headerLength ∧
      Shows ({ moved with headerLength := moved.headerLength - headerSize }, rest)
        (sheet.closeHeaders place) sheet.usedEnd ∧
      store.writer.checkMove behind count (sheet.handleCapacity + place) pool = .ok () := by
  subst behind_eq
  have far : 14 * maxWord ≤ Size.maxCapacity := by decide
  have small := sized.usedEnd_le
  have last := sized.headers_le_usedEnd
  have source : sheet.handleCapacity + place + headerSize +
      (sheet.handleCapacity + sheet.headerLength - (sheet.handleCapacity + place + headerSize)) ≤
      sheet.usedEnd := by
    rw [headerSize_eq]
    omega
  have target : sheet.handleCapacity + place +
      (sheet.handleCapacity + sheet.headerLength - (sheet.handleCapacity + place + headerSize)) ≤
      Size.maxCapacity := by
    rw [headerSize_eq]
    omega
  obtain ⟨⟨moved, rest⟩, done, shown, checked⟩ := shows.move source target
  obtain ⟨regions, -, -, headers, -⟩ := shown.fields
  refine ⟨moved, rest, done, regions, headers, ⟨shown.fits, shown.sound, ?_, ?_⟩, checked⟩
  · exact congrArg (fun old : Sheet => { old with headerLength := old.headerLength - headerSize })
      shown.sheet_eq
  · exact Nat.le_trans (Nat.le_max_left _ _) shown.length_le

theorem removeHeader (shows : Shows (store, pool) sheet sheet.usedEnd) (sized : sheet.Sized)
    {handle : UInt32} (inside : handle.toNat + 12 ≤ sheet.headerLength)
    (bounds : ∀ id < sheet.regionCount, handle < sheet.handleOf id →
      12 ≤ (sheet.handleOf id).toNat) :
    ∃ next, store.removeHeader handle pool = .ok next ∧
      Shows next (sheet.removeHeader handle) (sheet.removeHeader handle).usedEnd ∧
      store.checkRemoveHeader handle pool = .ok () := by
  obtain ⟨-, handles, -, headers, -⟩ := shows.fields
  have start : store.headerStart = sheet.handleCapacity := handles
  have last := sized.headers_le_usedEnd
  obtain ⟨moved, rest, done, count, length, closed, checked⟩ :=
    shows.closeHeaders sized rfl inside
  have first : Shows ({ moved with headerLength := moved.headerLength - headerSize }, rest)
      ((sheet.closeHeaders handle.toNat).editHandles handle 0) sheet.usedEnd := closed
  have front : (0 + sheet.regionCount) * 4 ≤ sheet.usedEnd := by
    have handles := sized.handles_le
    omega
  obtain ⟨lowered, safe⟩ := editHandles handle sheet.regionCount first front <| by
    intro id below behind
    rw [Nat.zero_add] at below
    rw [Sheet.handleOf_closeHeaders (sized.handle_le below)] at behind ⊢
    exact bounds id below behind
  rw [Nat.zero_add] at lowered
  rw [← List.range_eq_range'] at lowered safe
  unfold RegionStore.removeHeader checkRemoveHeader
  rw [start, headers]
  refine ⟨_, ?_, lowered, ?_⟩
  · simp only [done, ← count]
    rfl
  · rw [check_bind (demand_eq_ok (by rw [headerSize_eq]; omega)), check_bind checked,
      whenDone_ok done]
    simp only
    rw [check_bind (demand_eq_ok (by rw [headerSize_eq]; omega))]
    rwa [← count] at safe

/-- A handle that is larger than another is at least one header's width, whatever it is for. -/
theorem le_handle (holds : sheet.Holds slots) {id : Nat} (known : id < sheet.regionCount)
    {handle : UInt32} (behind : handle < sheet.handleOf id) : 12 ≤ (sheet.handleOf id).toNat := by
  rw [UInt32.lt_iff_toNat_lt] at behind
  by_cases opened : ∃ slot ∈ slots, slot.id = id
  · obtain ⟨slot, mem, rfl⟩ := opened
    obtain ⟨j, found⟩ := List.mem_iff_getElem?.1 mem
    rw [holds.handle_eq found, holds.toNat_handle found] at behind ⊢
    omega
  · rw [holds.closed_eq known fun slot mem same => opened ⟨slot, mem, same⟩]
    decide

theorem clear_open (shows : Shows (store, pool) sheet sheet.usedEnd) (holds : sheet.Holds slots)
    {k : Nat} {target : Slot} (at_target : slots[k]? = some target) :
    ∃ next, store.clear target.id pool = .ok next ∧
      Settled next (sheet.remove target.id (.ofNat (k * 12)) target.header) ∧
      store.checkClear target.id pool = .ok () := by
  have known := holds.packed.id_lt _ (List.mem_of_getElem? at_target)
  have handle := holds.toNat_handle at_target
  have last := holds.lt_length at_target
  have cleared : (sheet.remove target.id (.ofNat (k * 12)) target.header).Sized :=
    holds.sized.remove
  obtain ⟨found, looked⟩ := shows.find_open holds at_target
  obtain ⟨⟨without, rest⟩, done, shown, safe⟩ := shows.removeData holds at_target
  obtain ⟨tape, fields⟩ := sheet.removeData_fields (.ofNat (k * 12)) target.header
  have sized : (sheet.removeData (.ofNat (k * 12)) target.header).Sized := holds.sized.removeData
  have inside : (UInt32.ofNat (k * 12)).toNat + 12 ≤
      (sheet.removeData (.ofNat (k * 12)) target.header).headerLength := by
    rw [fields, handle]
    exact last
  obtain ⟨⟨headless, rest'⟩, done', shown', safe'⟩ := shown.removeHeader sized inside <| by
    intro id below behind
    rw [fields] at below
    rw [Sheet.handleOf_removeData holds.sized below] at behind ⊢
    exact le_handle holds below behind
  have front : target.id * 4 + 4 ≤
      ((sheet.removeData (.ofNat (k * 12)) target.header).removeHeader
        (.ofNat (k * 12))).usedEnd := by
    refine Nat.le_trans ?_ (Sheet.handleCapacity_le_usedEnd _)
    rw [fields]
    exact holds.sized.handle_le known
  obtain ⟨settled, synced⟩ := (shown'.putHandle front emptyHandle).syncPosition cleared
  refine ⟨_, ?_, settled, ?_⟩
  · unfold RegionStore.clear
    simp only [found, done, done', bind, Except.bind]
    rfl
  · unfold checkClear
    rw [check_bind looked, whenDone_ok found]
    simp only
    rw [check_bind safe, whenDone_ok done]
    simp only
    rw [check_bind safe', whenDone_ok done']
    simp only
    rw [check_bind (shown'.checkHandle front)]
    exact synced

theorem clear_closed (shows : Shows (store, pool) sheet sheet.usedEnd) (holds : sheet.Holds slots)
    {id : Nat} (known : id < sheet.regionCount) (closed : ∀ slot ∈ slots, slot.id ≠ id) :
    store.clear id pool = .ok (store, pool) ∧ store.checkClear id pool = .ok () := by
  obtain ⟨found, looked⟩ := shows.find_closed holds known closed
  unfold RegionStore.clear checkClear
  rw [check_bind looked, found]
  exact ⟨rfl, rfl⟩

theorem clear_unknown (shows : Shows (store, pool) sheet length) {id : Nat}
    (unknown : sheet.regionCount ≤ id) :
    store.clear id pool = .error (.regionNotFound id) ∧ store.checkClear id pool = .ok () := by
  obtain ⟨found, looked⟩ := shows.find_unknown unknown
  unfold RegionStore.clear checkClear
  rw [check_bind looked, found]
  exact ⟨rfl, rfl⟩

end Shows

/-! ## Bytes stored in place -/

theorem Settled.setSpan_inside (settled : Settled (store, pool) sheet) (holds : sheet.Holds slots)
    {slot : Slot} (mem : slot ∈ slots) {index : Nat} (inside : index < slot.content.size)
    (value : UInt8) :
    ∃ next, store.setSpan? slot.id index value = .ok (some next) ∧
      Settled (next, pool) (sheet.storeByte (slot.offset + index) value) := by
  have shows := settled.toShows
  have last := holds.packed.stop_le slot mem
  have place : sheet.dataStart + slot.offset + index + 1 ≤ sheet.usedEnd := by
    unfold Slot.stop at last
    unfold Sheet.usedEnd
    omega
  refine ⟨store.put (sheet.dataStart + slot.offset + index) #[value], ?_, ?_, settled.position_eq⟩
  · unfold RegionStore.setSpan?
    rw [shows.range_open holds mem]
    show Except.ok (if index < _ - _ then _ else _) = _
    rw [if_pos (by omega)]
  · have stored : Shows (store.put (sheet.dataStart + slot.offset + index) #[value], pool)
        { sheet with tape := sheet.tape.put (sheet.dataStart + slot.offset + index) #[value] }
        sheet.usedEnd := shows.put place
    rw [Nat.add_assoc] at stored ⊢
    exact stored

theorem Shows.setSpan_outside (shows : Shows (store, pool) sheet sheet.usedEnd)
    (holds : sheet.Holds slots) {slot : Slot} (mem : slot ∈ slots) {index : Nat}
    (outside : slot.content.size ≤ index) (value : UInt8) :
    store.setSpan? slot.id index value = .ok none := by
  unfold RegionStore.setSpan?
  rw [shows.range_open holds mem]
  show Except.ok (if index < _ - _ then _ else _) = _
  rw [if_neg (by omega)]

theorem Shows.setSpan_closed (shows : Shows (store, pool) sheet sheet.usedEnd)
    (holds : sheet.Holds slots) {id : Nat} (known : id < sheet.regionCount)
    (closed : ∀ slot ∈ slots, slot.id ≠ id) (index : Nat) (value : UInt8) :
    store.setSpan? id index value = .ok none := by
  unfold RegionStore.setSpan? RegionStore.range
  rw [(shows.find_closed holds known closed).1]
  rfl

theorem Shows.setSpan_unknown (shows : Shows (store, pool) sheet length) {id : Nat}
    (unknown : sheet.regionCount ≤ id) (index : Nat) (value : UInt8) :
    store.setSpan? id index value = .error (.regionNotFound id) := by
  unfold RegionStore.setSpan? RegionStore.range
  rw [(shows.find_unknown unknown).1]
  rfl

/-! ## The start of a store, and its end -/

theorem settled_onMemory (cells : Array UInt8) (sound : pool.Sound) :
    Settled (onMemory cells, pool) (.blank (Tape.ofArray cells)) :=
  ⟨⟨trivial, sound, rfl, Nat.zero_le _⟩, rfl⟩

theorem settled_withCapacity (count : Nat) (sound : pool.Sound) :
    Settled (withCapacity pool count) (.blank Tape.empty) := by
  have shows := Writer.shows_withCapacity sound count none
  exact ⟨⟨shows.fits, shows.sound, congrArg Sheet.blank shows.tape_eq, Nat.zero_le _⟩, rfl⟩

theorem Shows.dispose (shows : Shows (store, pool) sheet length) :
    Settled (store.dispose pool) (.blank Tape.empty) := by
  have next := shows.writer.dispose
  exact ⟨⟨next.fits, next.sound, congrArg Sheet.blank next.tape_eq, Nat.zero_le _⟩,
    next.position_eq⟩

end PooledBuffers.RegionStore
