import PooledBuffers.Proofs.Regions.Append
import PooledBuffers.Proofs.Regions.Checks
import PooledBuffers.Proofs.Regions.Clear

/-!
# Region stores and their sheets

Each step of a store's operations is the same step of its sheet, as long as the stretches that it
touches lie in memory. With each step goes the check of the bounds that it relies on.
-/

namespace PooledBuffers.RegionStore

open PooledBuffers.Regions

theorem whenDone_ok {β : Type} {result : Except Error β} {value : β} (h : result = .ok value)
    (next : β → Except Overrun Unit) : whenDone result next = next value := by
  rw [h]
  rfl

/-! ## The sheet of a store -/

def sheet (store : RegionStore) : Sheet :=
  ⟨store.writer.tape, store.regionCount, store.handleCapacity, store.headerCapacity,
    store.headerLength, store.dataLength⟩

/-- A store on a sound pool whose memory has at least `length` cells and shows a sheet. -/
structure Shows (state : RegionStore × Pool UInt8) (sheet : Sheet) (length : Nat) : Prop where
  fits : state.1.writer.Fits
  sound : state.2.Sound
  sheet_eq : state.1.sheet = sheet
  length_le : length ≤ state.1.writer.capacity

/-- A store between operations: its memory has all that is in use, and the cursor is behind it. -/
structure Settled (state : RegionStore × Pool UInt8) (sheet : Sheet) : Prop extends
    Shows state sheet sheet.usedEnd where
  position_eq : state.1.writer.position = sheet.usedEnd

variable {store : RegionStore} {pool : Pool UInt8} {sheet : Sheet} {length : Nat}
variable {slots : List Slot}

namespace Shows

theorem writer (shows : Shows (store, pool) sheet length) :
    Writer.Shows (store.writer, pool) sheet.tape store.writer.position length :=
  ⟨shows.fits, shows.sound, congrArg Sheet.tape shows.sheet_eq, rfl, shows.length_le⟩

theorem mono (shows : Shows (store, pool) sheet length) {less : Nat} (h : less ≤ length) :
    Shows (store, pool) sheet less :=
  { shows with length_le := Nat.le_trans h shows.length_le }

theorem fields (shows : Shows (store, pool) sheet length) :
    store.regionCount = sheet.regionCount ∧ store.handleCapacity = sheet.handleCapacity ∧
      store.headerCapacity = sheet.headerCapacity ∧ store.headerLength = sheet.headerLength ∧
      store.dataLength = sheet.dataLength := by
  rw [← shows.sheet_eq]
  exact ⟨rfl, rfl, rfl, rfl, rfl⟩

/-- A store whose writer shows another tape shows the sheet with that tape. -/
theorem with_writer (shows : Shows (store, pool) sheet length) {writer : Writer UInt8}
    {rest : Pool UInt8} {tape : Tape UInt8} {position more : Nat}
    (next : Writer.Shows (writer, rest) tape position more) :
    Shows ({ store with writer := writer }, rest) { sheet with tape := tape } more := by
  refine ⟨next.fits, next.sound, ?_, next.length_le⟩
  rw [← shows.sheet_eq, ← next.tape_eq]
  rfl

theorem handleAt (shows : Shows (store, pool) sheet length) {id : Nat}
    (inside : id * 4 + 4 ≤ length) : store.handleAt (handleOffset id) = sheet.handleOf id := by
  have inside : handleOffset id + handleSize ≤ length := inside
  unfold RegionStore.handleAt
  rw [shows.writer.slice_eq inside]
  rfl

theorem headerAt (shows : Shows (store, pool) sheet length) {offset : Nat}
    (inside : sheet.handleCapacity + offset + 12 ≤ length) :
    store.headerAt offset = sheet.headerAt offset := by
  have start : store.headerStart = sheet.handleCapacity :=
    congrArg Sheet.handleCapacity shows.sheet_eq
  have inside : sheet.handleCapacity + offset + headerSize ≤ length := inside
  unfold RegionStore.headerAt
  rw [start, shows.writer.slice_eq inside]
  rfl

theorem put (shows : Shows (store, pool) sheet length) {place : Nat} {run : Array UInt8}
    (inside : place + run.size ≤ length) :
    Shows (store.put place run, pool) { sheet with tape := sheet.tape.put place run } length :=
  shows.with_writer (shows.writer.edit_overwrite inside)

theorem putHandle (shows : Shows (store, pool) sheet length) {id : Nat}
    (inside : id * 4 + 4 ≤ length) (handle : UInt32) :
    Shows (store.putHandle (handleOffset id) handle, pool) (sheet.putHandle id handle) length :=
  shows.put (by rwa [Layout.size_bytes])

theorem putHeader (shows : Shows (store, pool) sheet length) {offset : Nat}
    (inside : sheet.handleCapacity + offset + 12 ≤ length) (header : Header) :
    Shows (store.putHeader offset header, pool) (sheet.putHeader offset header) length := by
  have start : store.headerStart = sheet.handleCapacity :=
    congrArg Sheet.handleCapacity shows.sheet_eq
  unfold RegionStore.putHeader
  rw [start]
  exact shows.put (by rwa [Layout.size_bytes])

/-- The cursor goes behind the memory in use, which nothing else sees. -/
theorem syncPosition (shows : Shows (store, pool) sheet length) (sized : sheet.Sized) :
    Settled (store.syncPosition pool) sheet ∧ store.checkSync pool = .ok () := by
  have same : store.usedEnd = sheet.usedEnd := congrArg Sheet.usedEnd shows.sheet_eq
  have far : 13 * maxWord ≤ Size.maxCapacity := by decide
  have top : Size.maxCapacity ≤ Size.top := by decide
  have small : sheet.usedEnd ≤ Size.maxCapacity := Nat.le_trans sized.usedEnd_le far
  have next := shows.writer.advanceTo small
  unfold RegionStore.syncPosition checkSync
  rw [same]
  refine ⟨⟨⟨next.fits, next.sound, (shows.with_writer next).sheet_eq, ?_⟩, next.position_eq⟩, ?_⟩
  · exact Nat.le_trans (Nat.le_max_right _ _) next.length_le
  · rw [check_bind (demand_eq_ok (Nat.le_trans small top))]
    exact shows.writer.checkEnsureCapacity_eq_ok small

theorem move (shows : Shows (store, pool) sheet length) {start size target : Nat}
    (source : start + size ≤ length) (small : target + size ≤ Size.maxCapacity) :
    ∃ next, store.move start size target pool = .ok next ∧
      Shows next { sheet with tape := sheet.tape.move start size target }
        (max length (target + size)) ∧
      store.writer.checkMove start size target pool = .ok () := by
  obtain ⟨next, moved, after⟩ := shows.writer.moveWithin source small false
  refine ⟨({ store with writer := next.1 }, next.2), ?_, shows.with_writer after, ?_⟩
  · unfold RegionStore.move
    rw [moved]
    rfl
  · exact shows.writer.checkMove_eq_ok fun _ _ => Nat.le_trans (Nat.le_add_right _ _) small

/-! ## The areas grow -/

theorem growHandles (shows : Shows (store, pool) sheet sheet.usedEnd) {needed : Nat}
    (sized : sheet.Sized) (after : (sheet.growHandles needed).Sized) :
    ∃ next, store.growHandles needed pool = .ok next ∧
      Shows next (sheet.growHandles needed) (sheet.growHandles needed).usedEnd ∧
      store.checkGrowHandles needed pool = .ok () := by
  obtain ⟨-, handles, headers, -, data⟩ := shows.fields
  have small := after.usedEnd_le
  have far : 32 * maxWord ≤ Size.maxCapacity := by decide
  have top : Size.maxCapacity ≤ Size.top := by decide
  unfold RegionStore.growHandles checkGrowHandles
  rw [handles, headers, data]
  by_cases enough : needed ≤ sheet.handleCapacity
  · -- Nothing grows.
    rw [if_pos enough, if_neg (Nat.not_lt.2 enough)]
    have same : sheet.growHandles needed = sheet := if_pos enough
    rw [same]
    exact ⟨_, rfl, shows, rfl⟩
  · rw [if_neg enough, if_pos (Nat.not_le.1 enough)]
    have grown : sheet.growHandles needed =
        { sheet with
          tape := sheet.tape.move sheet.handleCapacity (sheet.headerCapacity + sheet.dataLength)
            (max needed (sheet.handleCapacity * 2))
          handleCapacity := max needed (sheet.handleCapacity * 2) } := if_neg enough
    rw [grown] at small ⊢
    have length : max needed (sheet.handleCapacity * 2) +
        (sheet.headerCapacity + sheet.dataLength) ≤ 13 * maxWord := by
      rw [← Nat.add_assoc]
      exact small
    have source : sheet.handleCapacity + (sheet.headerCapacity + sheet.dataLength) ≤
        sheet.usedEnd := Nat.le_of_eq (Nat.add_assoc _ _ _).symm
    obtain ⟨⟨next, rest⟩, moved, shown, checked⟩ :=
      shows.move source (Nat.le_trans length (by omega))
    have bound := sized.handleCapacity_le
    refine ⟨({ next with handleCapacity := max needed (sheet.handleCapacity * 2) }, rest), ?_,
      ⟨shown.fits, shown.sound, ?_, ?_⟩, ?_⟩
    · simp only [moved]
      rfl
    · exact congrArg (fun old : Sheet =>
        { old with handleCapacity := max needed (sheet.handleCapacity * 2) }) shown.sheet_eq
    · refine Nat.le_trans (Nat.le_of_eq ?_) shown.length_le
      simp only [Sheet.usedEnd, Sheet.dataStart]
      omega
    · rw [check_bind (demand_eq_ok (by omega)), check_bind (demand_eq_ok (by omega))]
      exact checked

theorem growHeaders (shows : Shows (store, pool) sheet sheet.usedEnd) {needed : Nat}
    (sized : sheet.Sized) (after : (sheet.growHeaders needed).Sized) :
    ∃ next, store.growHeaders needed pool = .ok next ∧
      Shows next (sheet.growHeaders needed) (sheet.growHeaders needed).usedEnd ∧
      store.checkGrowHeaders needed pool = .ok () := by
  obtain ⟨-, handles, headers, -, data⟩ := shows.fields
  have start : store.dataStart = sheet.dataStart := congrArg Sheet.dataStart shows.sheet_eq
  have small := after.usedEnd_le
  have far : 32 * maxWord ≤ Size.maxCapacity := by decide
  have top : Size.maxCapacity ≤ Size.top := by decide
  unfold RegionStore.growHeaders checkGrowHeaders
  rw [handles, headers, data, start]
  by_cases enough : needed ≤ sheet.headerCapacity
  · rw [if_pos enough, if_neg (Nat.not_lt.2 enough)]
    have same : sheet.growHeaders needed = sheet := if_pos enough
    rw [same]
    exact ⟨_, rfl, shows, rfl⟩
  · rw [if_neg enough, if_pos (Nat.not_le.1 enough)]
    have grown : sheet.growHeaders needed =
        { sheet with
          tape := sheet.tape.move sheet.dataStart sheet.dataLength
            (sheet.handleCapacity + max needed (sheet.headerCapacity * 2))
          headerCapacity := max needed (sheet.headerCapacity * 2) } := if_neg enough
    rw [grown] at small ⊢
    have length : sheet.handleCapacity + max needed (sheet.headerCapacity * 2) +
        sheet.dataLength ≤ 13 * maxWord := small
    obtain ⟨⟨next, rest⟩, moved, shown, checked⟩ :=
      shows.move (Nat.le_refl sheet.usedEnd) (Nat.le_trans length (by omega))
    have bound := sized.headerCapacity_le
    refine ⟨({ next with headerCapacity := max needed (sheet.headerCapacity * 2) }, rest), ?_,
      ⟨shown.fits, shown.sound, ?_, ?_⟩, ?_⟩
    · simp only [moved]
      rfl
    · exact congrArg (fun old : Sheet =>
        { old with headerCapacity := max needed (sheet.headerCapacity * 2) }) shown.sheet_eq
    · exact Nat.le_trans (Nat.le_max_right _ _) shown.length_le
    · rw [check_bind (demand_eq_ok (by omega)), check_bind (demand_eq_ok (by omega))]
      exact checked

theorem checkHandle (shows : Shows (store, pool) sheet length) {id : Nat}
    (inside : id * 4 + 4 ≤ length) : store.checkHandle id = .ok () :=
  shows.writer.checkStretch_eq_ok inside

theorem checkHeader (shows : Shows (store, pool) sheet length) {offset : Nat}
    (inside : sheet.handleCapacity + offset + 12 ≤ length) : store.checkHeader offset = .ok () := by
  have start : store.headerStart = sheet.handleCapacity :=
    congrArg Sheet.handleCapacity shows.sheet_eq
  unfold RegionStore.checkHeader
  rw [start]
  exact shows.writer.checkStretch_eq_ok inside

theorem addRegion (shows : Shows (store, pool) sheet sheet.usedEnd) (holds : sheet.Holds slots)
    (small : sheet.regionCount + 1 ≤ maxWord) :
    ∃ next, store.addRegion pool = .ok (sheet.regionCount, next) ∧ Settled next sheet.addRegion ∧
      store.checkAddRegion pool = .ok () := by
  obtain ⟨regions, -⟩ := shows.fields
  have needed : (sheet.regionCount + 1) * handleSize ≤ 4 * maxWord := by
    rw [handleSize_eq]
    omega
  have grown := holds.growHandles needed
  have room := sheet.le_growHandles ((sheet.regionCount + 1) * handleSize)
  have added := (holds.addRegion small).1.sized
  obtain ⟨⟨wide, rest⟩, done, shown, checked⟩ := shows.growHandles holds.sized grown.sized
  unfold Sheet.addRegion at added ⊢
  unfold RegionStore.addRegion checkAddRegion
  generalize sheet.growHandles ((sheet.regionCount + 1) * handleSize) = sheet' at *
  rw [handleSize_eq] at room
  have inside : sheet.regionCount * 4 + 4 ≤ sheet'.usedEnd := by
    have front := sheet'.handleCapacity_le_usedEnd
    omega
  have counted : Shows ({ wide with regionCount := sheet.regionCount + 1 }, rest)
      { sheet' with regionCount := sheet.regionCount + 1 } sheet'.usedEnd :=
    ⟨shown.fits, shown.sound, congrArg (fun old : Sheet =>
      { old with regionCount := sheet.regionCount + 1 }) shown.sheet_eq, shown.length_le⟩
  obtain ⟨settled, synced⟩ := (counted.putHandle inside emptyHandle).syncPosition added
  simp only [regions, small, Nat.not_lt.2 small, ↓reduceIte]
  refine ⟨_, ?_, settled, ?_⟩
  · rw [done]
    rfl
  · rw [check_bind checked, whenDone_ok done]
    exact (check_bind (counted.checkHandle inside) _).trans synced

/-- Growing the header area is always possible; after it the new header gets its handle, unless
that would be too large. -/
theorem growHeaders_next (shows : Shows (store, pool) sheet sheet.usedEnd)
    (holds : sheet.Holds slots) :
    ∃ next, store.growHeaders (store.headerLength + headerSize) pool = .ok next ∧
      Shows next (sheet.growHeaders (sheet.headerLength + headerSize))
        (sheet.growHeaders (sheet.headerLength + headerSize)).usedEnd ∧
      (sheet.growHeaders (sheet.headerLength + headerSize)).Holds slots ∧
      store.checkGrowHeaders (store.headerLength + headerSize) pool = .ok () := by
  obtain ⟨-, -, -, headers, -⟩ := shows.fields
  have small := holds.sized.headerLength_le
  have large : 24 ≤ maxWord := by decide
  have needed : sheet.headerLength + headerSize ≤ 2 * maxWord := by
    rw [headerSize_eq]
    omega
  have grown := holds.growHeaders needed
  obtain ⟨next, done, shown, checked⟩ := shows.growHeaders holds.sized grown.sized
  rw [headers]
  exact ⟨next, done, shown, grown, checked⟩

theorem placeHeader (shows : Shows (store, pool) sheet sheet.usedEnd) (sized : sheet.Sized)
    {id : Nat} (known : id < sheet.regionCount) (small : sheet.headerLength ≤ maxWord)
    (room : sheet.headerLength + 12 ≤ sheet.headerCapacity) :
    Shows (store.placeHeader id, pool) (sheet.placeHeader id) (sheet.placeHeader id).usedEnd ∧
      store.checkPlaceHeader id = .ok () := by
  obtain rfl := shows.sheet_eq
  simp only at sized known small room
  have place : (UInt32.ofNat store.sheet.headerLength).toNat = store.sheet.headerLength :=
    toNat_word small
  have front : store.sheet.handleCapacity + (UInt32.ofNat store.sheet.headerLength).toNat + 12 ≤
      store.sheet.usedEnd := by
    rw [place]
    unfold Sheet.usedEnd Sheet.dataStart
    omega
  have counted : Shows ({ store with headerLength := store.sheet.headerLength + headerSize }, pool)
      { store.sheet with headerLength := store.sheet.headerLength + headerSize }
      store.sheet.usedEnd :=
    ⟨shows.fits, shows.sound, congrArg (fun old : Sheet =>
      { old with headerLength := store.sheet.headerLength + headerSize }) shows.sheet_eq,
      shows.length_le⟩
  have headed := counted.putHeader front { dataOffset := .ofNat store.sheet.dataLength }
  have inside : id * 4 + 4 ≤ store.sheet.usedEnd :=
    Nat.le_trans (sized.handle_le known) store.sheet.handleCapacity_le_usedEnd
  refine ⟨headed.putHandle inside _, ?_⟩
  exact (check_bind (counted.checkHeader front) _).trans (headed.checkHandle inside)

theorem openRegion (shows : Shows (store, pool) sheet sheet.usedEnd) (holds : sheet.Holds slots)
    {id : Nat} (known : id < sheet.regionCount) (small : sheet.headerLength ≤ maxWord) :
    ∃ next,
      store.openRegion id pool = .ok
        ((UInt32.ofNat sheet.headerLength, { dataOffset := UInt32.ofNat sheet.dataLength }), next) ∧
      Shows next (sheet.openRegion id) (sheet.openRegion id).usedEnd ∧
      store.checkOpen id pool = .ok () := by
  obtain ⟨⟨wide, rest⟩, done, shown, grown, checked⟩ := shows.growHeaders_next holds
  have room := sheet.le_growHeaders (sheet.headerLength + headerSize)
  obtain ⟨tape, capacity, same⟩ := sheet.growHeaders_fields (sheet.headerLength + headerSize)
  obtain ⟨-, -, -, headers, data⟩ := shown.fields
  unfold RegionStore.openRegion checkOpen Sheet.openRegion
  rw [same] at shown grown room headers data ⊢
  simp only at headers data
  have total := holds.sized.dataLength_le
  obtain ⟨placed, safe⟩ := shown.placeHeader grown.sized known small room
  refine ⟨(wide.placeHeader id, rest), ?_, placed, ?_⟩
  · have handle : checkWord wide.headerLength "header offset" = .ok (.ofNat wide.headerLength) :=
      if_neg (by omega)
    have offset : checkWord wide.dataLength "data offset" = .ok (.ofNat wide.dataLength) :=
      if_neg (by omega)
    rw [done, ← headers, ← data]
    show (checkWord wide.headerLength "header offset" >>= fun handle =>
      checkWord wide.dataLength "data offset" >>= _) = _
    rw [handle, offset]
    rfl
  · rw [check_bind checked, whenDone_ok done]
    exact (if_pos (by omega)).trans safe

theorem openRegion_full (shows : Shows (store, pool) sheet sheet.usedEnd)
    (holds : sheet.Holds slots) {id : Nat} (full : maxWord < sheet.headerLength) :
    store.openRegion id pool =
        .error (.outOfRange "header offset" sheet.headerLength maxWord) ∧
      store.checkOpen id pool = .ok () := by
  obtain ⟨⟨wide, rest⟩, done, shown, grown, checked⟩ := shows.growHeaders_next holds
  obtain ⟨tape, capacity, same⟩ := sheet.growHeaders_fields (sheet.headerLength + headerSize)
  obtain ⟨-, -, -, headers, -⟩ := shown.fields
  unfold RegionStore.openRegion checkOpen
  rw [same] at headers
  simp only at headers
  constructor
  · have handle : checkWord wide.headerLength "header offset" =
        .error (.outOfRange "header offset" wide.headerLength maxWord) := if_pos (by omega)
    rw [done, ← headers]
    show (checkWord wide.headerLength "header offset" >>= _) = _
    rw [handle]
    rfl
  · rw [check_bind checked, whenDone_ok done]
    exact if_neg (by omega)

/-! ## The loops over headers and handles -/

/-- The loop over the headers from an index on, from a state in which those before it are done. -/
theorem editOthers (handle : UInt32) (f : Header → Header)
    (bound : Header → Except Overrun Unit) (count : Nat) :
    ∀ {first : Nat} {store : RegionStore},
      Shows (store, pool) (sheet.editOthers handle f first) length →
      sheet.handleCapacity + (first + count) * 12 ≤ length →
      (∀ k, k < first + count → k * 12 ≠ handle.toNat → bound (sheet.headerAt (k * 12)) = .ok ()) →
      Shows
        (((List.range' first count).map (· * headerSize)).foldl (fun store offset =>
          if offset = handle.toNat then store
          else store.putHeader offset (f (store.headerAt offset))) store, pool)
        (sheet.editOthers handle f (first + count)) length ∧
      checkOthers handle f bound store ((List.range' first count).map (· * headerSize)) =
        .ok () := by
  induction count with
  | zero =>
    intro first store shows _ _
    exact ⟨shows, rfl⟩
  | succ count ih =>
    intro first store shows room bounds
    have next := sheet.editOthers_succ handle f first
    have shift : first + 1 + count = first + (count + 1) := by omega
    rw [List.range'_succ, List.map_cons, List.foldl_cons, checkOthers, ← shift]
    by_cases own : first * 12 = handle.toNat
    · -- This one is left out.
      rw [if_pos own] at next
      rw [headerSize_eq, if_pos own, if_pos own]
      exact ih (next ▸ shows) (shift ▸ room) (shift ▸ bounds)
    · have inside :
          (sheet.editOthers handle f first).handleCapacity + first * 12 + 12 ≤ length := by
        show sheet.handleCapacity + first * 12 + 12 ≤ length
        omega
      -- The rounds before this one have not touched this header.
      have read : store.headerAt (first * 12) = sheet.headerAt (first * 12) :=
        (shows.headerAt inside).trans (Sheet.headerAt_editOthers (Nat.le_refl first))
      rw [if_neg own] at next
      rw [headerSize_eq, if_neg own, if_neg own, read]
      have edited := shows.putHeader inside (f (sheet.headerAt (first * 12)))
      rw [← next] at edited
      obtain ⟨done, checked⟩ := ih edited (shift ▸ room) (shift ▸ bounds)
      refine ⟨done, ?_⟩
      rw [check_bind (shows.checkHeader inside), check_bind (bounds first (by omega) own)]
      exact checked

theorem updateOthers (shows : Shows (store, pool) sheet length) (handle : UInt32)
    (f : Header → Header) (bound : Header → Except Overrun Unit)
    (room : sheet.handleCapacity + sheet.headerLength ≤ length)
    (bounds : ∀ k, k * 12 + 12 ≤ sheet.headerLength → k * 12 ≠ handle.toNat →
      bound (sheet.headerAt (k * 12)) = .ok ()) :
    Shows (store.updateOthers handle f, pool) (sheet.updateOthers handle f) length ∧
      checkOthers handle f bound store store.headerOffsets = .ok () := by
  obtain ⟨-, -, -, headers, -⟩ := shows.fields
  have active : store.activeCount = sheet.headerLength / headerSize := by
    rw [activeCount, headers]
  have first : Shows (store, pool) (sheet.editOthers handle f 0) length := shows
  have loop := editOthers handle f bound (sheet.headerLength / 12) first (by omega)
    fun k below other => bounds k (by omega) other
  unfold RegionStore.updateOthers headerOffsets Sheet.updateOthers
  rw [active, List.range_eq_range']
  rwa [Nat.zero_add] at loop

theorem editHandles (handle : UInt32) (count : Nat) :
    ∀ {first : Nat} {store : RegionStore},
      Shows (store, pool) (sheet.editHandles handle first) length →
      (first + count) * 4 ≤ length →
      (∀ id < first + count, handle < sheet.handleOf id → headerSize ≤ (sheet.handleOf id).toNat) →
      Shows
        ((List.range' first count).foldl (fun store other =>
          let value := store.handleAt (handleOffset other)
          if value ≠ emptyHandle ∧ handle < value then
            store.putHandle (handleOffset other) (value - UInt32.ofNat headerSize)
          else store) store, pool)
        (sheet.editHandles handle (first + count)) length ∧
      checkHandles handle store (List.range' first count) = .ok () := by
  induction count with
  | zero =>
    intro first store shows _ _
    exact ⟨shows, rfl⟩
  | succ count ih =>
    intro first store shows room bounds
    have next := sheet.editHandles_succ handle first
    have shift : first + 1 + count = first + (count + 1) := by omega
    have inside : first * 4 + 4 ≤ length := by omega
    -- As with the headers, what is read here is what was there before the loop.
    have read : store.handleAt (handleOffset first) = sheet.handleOf first :=
      (shows.handleAt inside).trans (Sheet.handleOf_editHandles (Nat.le_refl first))
    rw [List.range'_succ, List.foldl_cons, checkHandles, ← shift, read,
      check_bind (shows.checkHandle inside)]
    by_cases lower : sheet.handleOf first ≠ emptyHandle ∧ handle < sheet.handleOf first
    · rw [if_pos lower] at next
      simp only [if_pos lower]
      have edited := shows.putHandle inside (sheet.handleOf first - UInt32.ofNat headerSize)
      rw [← next] at edited
      obtain ⟨done, checked⟩ := ih edited (shift ▸ room) (shift ▸ bounds)
      refine ⟨done, ?_⟩
      rw [check_bind (demand_eq_ok (bounds first (by omega) lower.2))]
      exact checked
    · rw [if_neg lower] at next
      simp only [if_neg lower]
      exact ih (next ▸ shows) (shift ▸ room) (shift ▸ bounds)

/-! ## Putting bytes in -/

theorem spread (shows : Shows (store, pool) sheet sheet.usedEnd) {stop : Nat}
    (inside : stop ≤ sheet.dataLength) {run : Array UInt8}
    (small : sheet.usedEnd + run.size ≤ Size.maxCapacity) :
    ∃ next, store.spread stop run pool = .ok next ∧
      Shows next (sheet.spread stop run) (sheet.spread stop run).usedEnd ∧
      store.checkSpread stop run pool = .ok () := by
  have start : store.dataStart = sheet.dataStart := congrArg Sheet.dataStart shows.sheet_eq
  have used : store.usedEnd = sheet.usedEnd := congrArg Sheet.usedEnd shows.sheet_eq
  have top : Size.maxCapacity ≤ Size.top := by decide
  have place : sheet.dataStart + stop ≤ sheet.usedEnd := by
    unfold Sheet.usedEnd
    omega
  have advanced := shows.writer.advanceTo small
  have safe := shows.writer.checkEnsureCapacity_eq_ok small
  unfold RegionStore.spread checkSpread
  rw [start, used]
  generalize store.writer.advanceTo (sheet.usedEnd + run.size) pool = state at advanced ⊢
  obtain ⟨writer, rest⟩ := state
  have source : sheet.dataStart + stop + (sheet.usedEnd - (sheet.dataStart + stop)) ≤
      max sheet.usedEnd (sheet.usedEnd + run.size) := by omega
  have target : sheet.dataStart + stop + run.size +
      (sheet.usedEnd - (sheet.dataStart + stop)) ≤ Size.maxCapacity := by omega
  obtain ⟨⟨moved, rest'⟩, done, shown, checked⟩ := (shows.with_writer advanced).move source target
  -- The gap may reach behind the old end, where the cursor's move has made room.
  have gap : sheet.dataStart + stop + run.size ≤ max (max sheet.usedEnd (sheet.usedEnd + run.size))
      (sheet.dataStart + stop + run.size + (sheet.usedEnd - (sheet.dataStart + stop))) := by omega
  have filled := shown.put gap
  refine ⟨({ moved.put (sheet.dataStart + stop) run with
      dataLength := moved.dataLength + run.size }, rest'), ?_,
    ⟨filled.fits, filled.sound, ?_, ?_⟩, ?_⟩
  · simp only [done]
    rfl
  · exact congrArg (fun old : Sheet => { old with dataLength := old.dataLength + run.size })
      filled.sheet_eq
  · refine Nat.le_trans ?_ filled.length_le
    show sheet.dataStart + (sheet.dataLength + run.size) ≤ _
    unfold Sheet.usedEnd
    omega
  · rw [check_bind (demand_eq_ok place), check_bind (demand_eq_ok (Nat.le_trans small top)),
      check_bind safe]
    simp only
    rw [check_bind checked, whenDone_ok done]
    exact shown.writer.checkStretch_eq_ok gap

theorem raiseOthers (shows : Shows (store, pool) sheet length) (handle : UInt32) (stop : Nat)
    (run : Array UInt8) (room : sheet.handleCapacity + sheet.headerLength ≤ length)
    (bounds : ∀ k, k * 12 + 12 ≤ sheet.headerLength → k * 12 ≠ handle.toNat →
      stop ≤ (sheet.headerAt (k * 12)).dataOffset.toNat →
      (sheet.headerAt (k * 12)).dataOffset.toNat + run.size ≤ maxWord) :
    Shows (store.raiseOthers handle stop run, pool) (sheet.raiseOthers handle stop run) length ∧
      store.checkRaise handle stop run = .ok () := by
  unfold RegionStore.raiseOthers checkRaise Sheet.raiseOthers
  by_cases empty : run.isEmpty = true
  · rw [if_pos empty, if_pos empty, if_neg (by simp [empty])]
    exact ⟨shows, rfl⟩
  · rw [if_neg empty, if_neg empty, if_pos (by simp [empty])]
    refine shows.updateOthers handle _ _ room fun k inside other => ?_
    by_cases behind : stop ≤ (sheet.headerAt (k * 12)).dataOffset.toNat
    · rw [if_pos behind]
      exact demand_eq_ok (bounds k inside other behind)
    · exact if_neg behind

/-- Every header that moves up belongs to a slot, which still ends inside the data area. -/
theorem raised_le (holds : sheet.Holds slots) {run : Array UInt8}
    (small : sheet.dataLength + run.size ≤ maxWord) (stop : Nat) {j : Nat}
    (below : j * 12 + 12 ≤ sheet.headerLength) :
    ((sheet.spread stop run).headerAt (j * 12)).dataOffset.toNat + run.size ≤ maxWord := by
  have room := holds.sized.headers_le
  obtain ⟨slot, found⟩ := holds.exists_slot below
  have mem := List.mem_of_getElem? found
  have ends := holds.packed.stop_le slot mem
  rw [Sheet.headerAt_spread (by omega), holds.header_eq found, (holds.toNat_header mem).1]
  unfold Slot.stop at ends
  omega

theorem insert (shows : Shows (store, pool) sheet sheet.usedEnd) (holds : sheet.Holds slots)
    {k : Nat} {target : Slot} (at_target : slots[k]? = some target) {run : Array UInt8}
    (small : sheet.dataLength + run.size ≤ maxWord) (items : Nat) :
    ∃ next, store.insert (.ofNat (k * 12)) target.header run items pool = .ok next ∧
      Settled next (sheet.insert (.ofNat (k * 12)) target.header run items) ∧
      store.checkInsert (.ofNat (k * 12)) target.header run items pool = .ok () := by
  have mem_target : target ∈ slots := List.mem_of_getElem? at_target
  have inserted := (holds.insert at_target small items).sized
  have handle : (UInt32.ofNat (k * 12)).toNat = k * 12 := holds.toNat_handle at_target
  obtain ⟨-, length, -, stop⟩ := holds.toNat_header mem_target
  have last := holds.packed.stop_le target mem_target
  have far : 14 * maxWord ≤ Size.maxCapacity := by decide
  have used := holds.sized.usedEnd_le
  have inside : target.header.dataEnd ≤ sheet.dataLength := stop ▸ last
  have added : sheet.usedEnd + run.size ≤ Size.maxCapacity := by omega
  obtain ⟨⟨wide, rest⟩, done, shown, checked⟩ := shows.spread inside added
  have room := holds.sized.headers_le
  have areas : sheet.handleCapacity + sheet.headerLength ≤
      (sheet.spread target.header.dataEnd run).usedEnd := by
    show _ ≤ sheet.dataStart + (sheet.dataLength + run.size)
    unfold Sheet.dataStart
    omega
  obtain ⟨raised, safe⟩ := shown.raiseOthers (.ofNat (k * 12)) target.header.dataEnd run areas
    fun _ below _ _ => raised_le holds small _ below
  obtain ⟨tape, fields⟩ := (sheet.spread target.header.dataEnd run).raiseOthers_fields
    (.ofNat (k * 12)) target.header.dataEnd run
  have front : ((sheet.spread target.header.dataEnd run).raiseOthers (.ofNat (k * 12))
      target.header.dataEnd run).handleCapacity + (UInt32.ofNat (k * 12)).toNat + 12 ≤
      (sheet.spread target.header.dataEnd run).usedEnd := by
    have below := holds.lt_length at_target
    rw [fields, handle]
    show sheet.handleCapacity + k * 12 + 12 ≤ _
    omega
  have headed := raised.putHeader front (target.header.extend (.ofNat run.size) items)
  obtain ⟨settled, synced⟩ := headed.syncPosition inserted
  refine ⟨_, ?_, settled, ?_⟩
  · unfold RegionStore.insert
    rw [done]
    rfl
  · unfold checkInsert
    have content : target.header.dataLength.toNat + run.size ≤ maxWord := by
      rw [length]
      unfold Slot.stop at last
      omega
    rw [check_bind (demand_eq_ok content), check_bind checked, whenDone_ok done]
    simp only
    rw [check_bind safe, check_bind (raised.checkHeader front)]
    exact synced

end Shows

end PooledBuffers.RegionStore
