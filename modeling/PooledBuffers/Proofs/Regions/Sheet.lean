import PooledBuffers.Proofs.Regions.Slots
import PooledBuffers.Proofs.Wire.Records

/-!
# Region stores on a tape

A sheet is a region store whose memory is a tape: it has no capacity, so that nothing grows and
nothing is refused. The operations of a store are edits of its sheet.

* `Sheet.handleOf`, `Sheet.headerAt`, `Sheet.dataAt` — what is read from the three areas;
* `Sheet.insert`, `Sheet.appendItems` — bytes put into a region, and everything behind them moved.
-/

namespace PooledBuffers.Regions

open RegionStore (maxWord handleOffset)

@[simp] theorem handleSize_eq : handleSize = 4 := rfl

@[simp] theorem headerSize_eq : headerSize = 12 := rfl

@[simp] theorem handleOffset_eq (id : Nat) : handleOffset id = id * 4 := rfl

@[simp] theorem width_handle : Layout.width UInt32 = 4 := rfl

@[simp] theorem width_header : Layout.width Header = 12 := rfl

theorem toNat_word {value : Nat} (h : value ≤ maxWord) : (UInt32.ofNat value).toNat = value :=
  UInt32.toNat_ofNat_of_lt' (Nat.lt_of_le_of_lt h (by decide))

/-! ## Headers -/

namespace Header

/-- The header of bytes that move up if they lie behind `stop`. -/
def raise (header : Header) (stop : Nat) (added : UInt32) : Header :=
  if stop ≤ header.dataOffset.toNat then
    { header with dataOffset := header.dataOffset + added }
  else header

theorem raise_zero (header : Header) (stop : Nat) :
    header.raise stop (UInt32.ofNat 0) = header := by
  unfold raise
  split
  · have same : header.dataOffset + UInt32.ofNat 0 = header.dataOffset := UInt32.add_zero _
    rw [same]
  · rfl

/-- The header of bytes that move down if they lie behind `stop`. -/
def lower (header : Header) (stop : Nat) (removed : UInt32) : Header :=
  if stop ≤ header.dataOffset.toNat then
    { header with dataOffset := header.dataOffset - removed }
  else header

theorem lower_zero (header : Header) (stop : Nat) : header.lower stop 0 = header := by
  unfold lower
  split
  · rw [UInt32.sub_zero]
  · rfl

/-- The header after `added` bytes and `items` values at the end. -/
def extend (header : Header) (added : UInt32) (items : Nat) : Header :=
  { header with
    dataLength := header.dataLength + added
    count := UInt32.ofNat (min (header.count.toNat + items) maxWord) }

end Header

/-! ## Sheets -/

structure Sheet where
  tape : Tape UInt8
  regionCount : Nat
  handleCapacity : Nat
  headerCapacity : Nat
  headerLength : Nat
  dataLength : Nat

namespace Sheet

def dataStart (sheet : Sheet) : Nat := sheet.handleCapacity + sheet.headerCapacity

def usedEnd (sheet : Sheet) : Nat := sheet.dataStart + sheet.dataLength

def handleOf (sheet : Sheet) (id : Nat) : UInt32 := sheet.tape.read UInt32 (handleOffset id)

def headerAt (sheet : Sheet) (offset : Nat) : Header :=
  sheet.tape.read Header (sheet.handleCapacity + offset)

def dataAt (sheet : Sheet) (offset count : Nat) : Array UInt8 :=
  sheet.tape.stretch (sheet.dataStart + offset) count

def putHandle (sheet : Sheet) (id : Nat) (handle : UInt32) : Sheet :=
  { sheet with tape := sheet.tape.write (handleOffset id) handle }

def putHeader (sheet : Sheet) (offset : Nat) (header : Header) : Sheet :=
  { sheet with tape := sheet.tape.write (sheet.handleCapacity + offset) header }

/-- Applies a function to the first `count` headers, but not to the one at the offset `handle`. -/
def editOthers (sheet : Sheet) (handle : UInt32) (f : Header → Header) (count : Nat) : Sheet :=
  { sheet with
    tape := sheet.tape.editEach sheet.handleCapacity
      (fun k header => if k * headerSize = handle.toNat then none else some (f header)) count }

/-- Applies a function to the headers of all regions but one. -/
def updateOthers (sheet : Sheet) (handle : UInt32) (f : Header → Header) : Sheet :=
  sheet.editOthers handle f (sheet.headerLength / headerSize)

/-- Lets the first `count` handles follow, where they are behind the header that is gone. -/
def editHandles (sheet : Sheet) (handle : UInt32) (count : Nat) : Sheet :=
  { sheet with
    tape := sheet.tape.editEach 0
      (fun _ value =>
        if value ≠ emptyHandle ∧ handle < value then some (value - UInt32.ofNat headerSize)
        else none)
      count }

/-- Lets the handles of the headers behind one follow them down. -/
def lowerHandles (sheet : Sheet) (handle : UInt32) : Sheet :=
  sheet.editHandles handle sheet.regionCount

def growHandles (sheet : Sheet) (needed : Nat) : Sheet :=
  if needed ≤ sheet.handleCapacity then sheet
  else
    let capacity := max needed (sheet.handleCapacity * 2)
    { sheet with
      tape :=
        sheet.tape.move sheet.handleCapacity (sheet.headerCapacity + sheet.dataLength) capacity
      handleCapacity := capacity }

def growHeaders (sheet : Sheet) (needed : Nat) : Sheet :=
  if needed ≤ sheet.headerCapacity then sheet
  else
    let capacity := max needed (sheet.headerCapacity * 2)
    { sheet with
      tape := sheet.tape.move sheet.dataStart sheet.dataLength (sheet.handleCapacity + capacity)
      headerCapacity := capacity }

def addRegion (sheet : Sheet) : Sheet :=
  let grown := sheet.growHandles ((sheet.regionCount + 1) * handleSize)
  { grown with regionCount := sheet.regionCount + 1 }.putHandle sheet.regionCount emptyHandle

/-- Puts an empty header behind the last one and lets the handle of a region point to it. -/
def placeHeader (sheet : Sheet) (id : Nat) : Sheet :=
  let handle := UInt32.ofNat sheet.headerLength
  ({ sheet with headerLength := sheet.headerLength + headerSize }.putHeader handle.toNat
    { dataOffset := UInt32.ofNat sheet.dataLength }).putHandle id handle

def openRegion (sheet : Sheet) (id : Nat) : Sheet :=
  (sheet.growHeaders (sheet.headerLength + headerSize)).placeHeader id

/-- Lets the headers of the bytes behind `stop` follow them up, by the length of a run. -/
def raiseOthers (sheet : Sheet) (handle : UInt32) (stop : Nat) (run : Array UInt8) : Sheet :=
  if run.isEmpty then sheet
  else sheet.updateOthers handle (·.raise stop (UInt32.ofNat run.size))

/-- Moves the data from `stop` on up and puts a run into the gap. -/
def spread (sheet : Sheet) (stop : Nat) (run : Array UInt8) : Sheet :=
  let place := sheet.dataStart + stop
  { sheet with
    tape := (sheet.tape.move place (sheet.usedEnd - place) (place + run.size)).put place run
    dataLength := sheet.dataLength + run.size }

/-- Puts a run behind the bytes of a region, whose header is given. -/
def insert (sheet : Sheet) (handle : UInt32) (header : Header) (run : Array UInt8)
    (items : Nat) : Sheet :=
  ((sheet.spread header.dataEnd run).raiseOthers handle header.dataEnd run).putHeader handle.toNat
    (header.extend (UInt32.ofNat run.size) items)

def storeByte (sheet : Sheet) (offset : Nat) (value : UInt8) : Sheet :=
  { sheet with tape := sheet.tape.put (sheet.dataStart + offset) #[value] }

/-- Takes bytes out of the data area and moves those behind them down. -/
def closeGap (sheet : Sheet) (start length : Nat) : Sheet :=
  let place := sheet.dataStart + start
  { sheet with
    tape := sheet.tape.move (place + length) (sheet.usedEnd - (place + length)) place
    dataLength := sheet.dataLength - length }

/-- Lets the headers of the bytes behind those removed follow them down. -/
def lowerOthers (sheet : Sheet) (handle : UInt32) (removed : Header) : Sheet :=
  if removed.dataLength = 0 then sheet
  else sheet.updateOthers handle (·.lower removed.dataEnd removed.dataLength)

/-- Takes out the bytes of a region, whose header is given. -/
def removeData (sheet : Sheet) (handle : UInt32) (removed : Header) : Sheet :=
  (sheet.closeGap removed.dataOffset.toNat removed.dataLength.toNat).lowerOthers handle removed

/-- Takes out the header at an offset and moves those behind it down. -/
def closeHeaders (sheet : Sheet) (offset : Nat) : Sheet :=
  let place := sheet.handleCapacity + offset
  { sheet with
    tape := sheet.tape.move (place + headerSize)
      (sheet.handleCapacity + sheet.headerLength - (place + headerSize)) place
    headerLength := sheet.headerLength - headerSize }

def removeHeader (sheet : Sheet) (handle : UInt32) : Sheet :=
  (sheet.closeHeaders handle.toNat).lowerHandles handle

/-- Takes out a region's bytes and its header. -/
def remove (sheet : Sheet) (id : Nat) (handle : UInt32) (removed : Header) : Sheet :=
  ((sheet.removeData handle removed).removeHeader handle).putHandle id emptyHandle

/-! ## What is read after an edit -/

section Frame

variable {sheet : Sheet} {id other offset count : Nat} {handle : UInt32} {header : Header}

@[simp] theorem handleOf_putHandle : (sheet.putHandle id handle).handleOf id = handle :=
  Tape.read_write _ _ _

theorem handleOf_putHandle_of_ne (h : id ≠ other) :
    (sheet.putHandle other handle).handleOf id = sheet.handleOf id := by
  refine Tape.read_put _ ?_
  simp only [width_handle, handleOffset_eq, Layout.size_bytes]
  omega

theorem headerAt_putHandle (h : id * 4 + 4 ≤ sheet.handleCapacity) :
    (sheet.putHandle id handle).headerAt offset = sheet.headerAt offset := by
  refine Tape.read_put _ (.inr ?_)
  simp only [width_handle, handleOffset_eq, Layout.size_bytes, putHandle]
  omega

theorem dataAt_putHandle (h : id * 4 + 4 ≤ sheet.handleCapacity) :
    (sheet.putHandle id handle).dataAt offset count = sheet.dataAt offset count := by
  refine Tape.stretch_put_of_disjoint _ (.inr ?_)
  simp only [width_handle, handleOffset_eq, Layout.size_bytes, dataStart, putHandle]
  omega

theorem handleOf_putHeader (h : id * 4 + 4 ≤ sheet.handleCapacity) :
    (sheet.putHeader offset header).handleOf id = sheet.handleOf id := by
  refine Tape.read_put _ (.inl ?_)
  simp only [width_handle, handleOffset_eq]
  omega

@[simp] theorem headerAt_putHeader : (sheet.putHeader offset header).headerAt offset = header :=
  Tape.read_write _ _ _

theorem headerAt_putHeader_of_ne {i j : Nat} (h : i ≠ j) :
    (sheet.putHeader (j * 12) header).headerAt (i * 12) = sheet.headerAt (i * 12) := by
  refine Tape.read_put _ ?_
  simp only [width_header, Layout.size_bytes, putHeader]
  omega

theorem dataAt_putHeader {place : Nat} (h : place + 12 ≤ sheet.headerCapacity) :
    (sheet.putHeader place header).dataAt offset count = sheet.dataAt offset count := by
  refine Tape.stretch_put_of_disjoint _ (.inr ?_)
  simp only [width_header, Layout.size_bytes, dataStart, putHeader]
  omega

theorem headerAt_editOthers {f : Header → Header} {j k : Nat} (h : k ≤ j) :
    (sheet.editOthers handle f k).headerAt (j * 12) = sheet.headerAt (j * 12) := by
  refine Tape.read_congr fun i below _ => Tape.editEach_apply (.inr ?_)
  simp only [width_header, editOthers] at below ⊢
  omega

/-- The next header is edited as it was before all edits. -/
theorem editOthers_succ (sheet : Sheet) (handle : UInt32) (f : Header → Header) (k : Nat) :
    sheet.editOthers handle f (k + 1) =
      if k * 12 = handle.toNat then sheet.editOthers handle f k
      else (sheet.editOthers handle f k).putHeader (k * 12) (f (sheet.headerAt (k * 12))) := by
  have untouched : (sheet.editOthers handle f k).headerAt (k * 12) = sheet.headerAt (k * 12) :=
    headerAt_editOthers (Nat.le_refl k)
  rw [← untouched]
  by_cases own : k * 12 = handle.toNat
  · rw [if_pos own, editOthers, Tape.editEach]
    simp only [headerSize_eq, own, ↓reduceIte]
    rfl
  · rw [if_neg own, editOthers, Tape.editEach]
    simp only [headerSize_eq, own, ↓reduceIte]
    rfl

theorem handleOf_editHandles {k : Nat} (h : k ≤ id) :
    (sheet.editHandles handle k).handleOf id = sheet.handleOf id := by
  refine Tape.read_congr fun i below _ => Tape.editEach_apply (.inr ?_)
  simp only [width_handle, handleOffset_eq] at below ⊢
  omega

theorem editHandles_succ (sheet : Sheet) (handle : UInt32) (k : Nat) :
    sheet.editHandles handle (k + 1) =
      if sheet.handleOf k ≠ emptyHandle ∧ handle < sheet.handleOf k then
        (sheet.editHandles handle k).putHandle k (sheet.handleOf k - UInt32.ofNat headerSize)
      else sheet.editHandles handle k := by
  have untouched : (sheet.editHandles handle k).handleOf k = sheet.handleOf k :=
    handleOf_editHandles (Nat.le_refl k)
  have place : handleOffset k = 0 + k * Layout.width UInt32 := (Nat.zero_add _).symm
  rw [← untouched]
  by_cases lower : (sheet.editHandles handle k).handleOf k ≠ emptyHandle ∧
      handle < (sheet.editHandles handle k).handleOf k
  · rw [if_pos lower, putHandle, handleOf, place]
    rw [handleOf, place] at lower
    simp only [editHandles, Tape.editEach] at lower ⊢
    simp only [if_pos lower]
  · rw [if_neg lower]
    rw [handleOf, place] at lower
    simp only [editHandles, Tape.editEach] at lower ⊢
    simp only [if_neg lower]

theorem handleOf_updateOthers {f : Header → Header} (h : id * 4 + 4 ≤ sheet.handleCapacity) :
    (sheet.updateOthers handle f).handleOf id = sheet.handleOf id := by
  refine Tape.read_congr fun i _ inside => Tape.editEach_apply (.inl ?_)
  simp only [width_handle, handleOffset_eq] at inside
  omega

theorem headerAt_updateOthers {f : Header → Header} {k : Nat}
    (h : k * 12 + 12 ≤ sheet.headerLength) :
    (sheet.updateOthers handle f).headerAt (k * 12) =
      if k * 12 = handle.toNat then sheet.headerAt (k * 12) else f (sheet.headerAt (k * 12)) := by
  have inside : k < sheet.headerLength / headerSize := by
    rw [headerSize_eq]
    omega
  refine (Tape.read_editEach inside).trans ?_
  rw [width_header, headerSize_eq, headerAt]
  by_cases own : k * 12 = handle.toNat
  · rw [if_pos own, if_pos own, Option.getD_none]
  · rw [if_neg own, if_neg own, Option.getD_some]

theorem dataAt_updateOthers {f : Header → Header}
    (h : sheet.headerLength ≤ sheet.headerCapacity) :
    (sheet.updateOthers handle f).dataAt offset count = sheet.dataAt offset count := by
  refine Tape.stretch_congr fun i _ => Tape.editEach_apply (.inr ?_)
  simp only [width_header, headerSize_eq, dataStart, updateOthers, editOthers]
  omega

theorem handleOf_raiseOthers {stop : Nat} {run : Array UInt8}
    (h : id * 4 + 4 ≤ sheet.handleCapacity) :
    (sheet.raiseOthers handle stop run).handleOf id = sheet.handleOf id := by
  unfold raiseOthers
  split
  · rfl
  · exact handleOf_updateOthers h

theorem headerAt_raiseOthers {stop k : Nat} {run : Array UInt8}
    (h : k * 12 + 12 ≤ sheet.headerLength) (other : k * 12 ≠ handle.toNat) :
    (sheet.raiseOthers handle stop run).headerAt (k * 12) =
      (sheet.headerAt (k * 12)).raise stop (UInt32.ofNat run.size) := by
  unfold raiseOthers
  split
  · rename_i empty
    rw [Array.isEmpty_iff.1 empty]
    exact (Header.raise_zero _ _).symm
  · rw [headerAt_updateOthers h, if_neg other]

theorem dataAt_raiseOthers {stop : Nat} {run : Array UInt8}
    (h : sheet.headerLength ≤ sheet.headerCapacity) :
    (sheet.raiseOthers handle stop run).dataAt offset count = sheet.dataAt offset count := by
  unfold raiseOthers
  split
  · rfl
  · exact dataAt_updateOthers h

theorem raiseOthers_fields (sheet : Sheet) (handle : UInt32) (stop : Nat) (run : Array UInt8) :
    ∃ tape, sheet.raiseOthers handle stop run = { sheet with tape := tape } := by
  unfold raiseOthers
  split
  · exact ⟨sheet.tape, rfl⟩
  · exact ⟨_, rfl⟩

theorem handleOf_spread {stop : Nat} {run : Array UInt8} (h : id * 4 + 4 ≤ sheet.handleCapacity) :
    (sheet.spread stop run).handleOf id = sheet.handleOf id := by
  have front : handleOffset id + Layout.width UInt32 ≤ sheet.dataStart + stop := by
    simp only [width_handle, handleOffset_eq, dataStart]
    omega
  exact (Tape.read_put _ (.inl front)).trans
    (Tape.read_move_of_disjoint _ (.inl (Nat.le_trans front (Nat.le_add_right _ _))))

theorem headerAt_spread {stop : Nat} {run : Array UInt8}
    (h : offset + 12 ≤ sheet.headerCapacity) :
    (sheet.spread stop run).headerAt offset = sheet.headerAt offset := by
  have front : sheet.handleCapacity + offset + Layout.width Header ≤ sheet.dataStart + stop := by
    simp only [width_header, dataStart]
    omega
  exact (Tape.read_put _ (.inl front)).trans
    (Tape.read_move_of_disjoint _ (.inl (Nat.le_trans front (Nat.le_add_right _ _))))

theorem dataAt_append (sheet : Sheet) (offset count more : Nat) :
    sheet.dataAt offset count ++ sheet.dataAt (offset + count) more =
      sheet.dataAt offset (count + more) := by
  rw [dataAt, dataAt, ← Nat.add_assoc]
  exact sheet.tape.stretch_append _ _ _

theorem dataAt_spread_run (stop : Nat) (run : Array UInt8) :
    (sheet.spread stop run).dataAt stop run.size = run :=
  Tape.stretch_put _ _ _

theorem dataAt_spread_of_le {stop : Nat} {run : Array UInt8} (h : offset + count ≤ stop) :
    (sheet.spread stop run).dataAt offset count = sheet.dataAt offset count := by
  have front : sheet.dataStart + offset + count ≤ sheet.dataStart + stop := by omega
  exact (Tape.stretch_put_of_disjoint _ (.inl front)).trans
    (Tape.stretch_move_of_disjoint _ (.inl (Nat.le_trans front (Nat.le_add_right _ _))))

/-- The data behind the gap is found a run's length further up. -/
theorem dataAt_spread_of_ge {stop : Nat} {run : Array UInt8} (behind : stop ≤ offset)
    (h : offset + count ≤ sheet.dataLength) :
    (sheet.spread stop run).dataAt (offset + run.size) count = sheet.dataAt offset count := by
  have inside : offset - stop + count ≤ sheet.usedEnd - (sheet.dataStart + stop) := by
    unfold usedEnd
    omega
  have moved := sheet.tape.stretch_move (sheet.dataStart + stop)
    (sheet.dataStart + stop + run.size) inside
  have source : sheet.dataStart + stop + (offset - stop) = sheet.dataStart + offset := by omega
  have target : sheet.dataStart + stop + run.size + (offset - stop) =
      sheet.dataStart + (offset + run.size) := by omega
  rw [source, target] at moved
  exact (Tape.stretch_put_of_disjoint _ (.inr (by simp only [spread, dataStart]; omega))).trans
    moved

section Insert

variable {run : Array UInt8} {items : Nat}

theorem insert_fields (sheet : Sheet) (handle : UInt32) (header : Header) (run : Array UInt8)
    (items : Nat) :
    ∃ tape, sheet.insert handle header run items =
      { sheet with tape := tape, dataLength := sheet.dataLength + run.size } := by
  obtain ⟨tape, raised⟩ := (sheet.spread header.dataEnd run).raiseOthers_fields handle
    header.dataEnd run
  rw [insert, raised]
  exact ⟨_, rfl⟩

theorem handleOf_insert (h : id * 4 + 4 ≤ sheet.handleCapacity) :
    (sheet.insert handle header run items).handleOf id = sheet.handleOf id := by
  obtain ⟨tape, raised⟩ := (sheet.spread header.dataEnd run).raiseOthers_fields handle
    header.dataEnd run
  unfold insert
  rw [handleOf_putHeader (by rw [raised]; exact h), handleOf_raiseOthers, handleOf_spread h]
  exact h

theorem headerAt_insert {k : Nat} (own : handle.toNat = k * 12) :
    (sheet.insert handle header run items).headerAt (k * 12) =
      header.extend (.ofNat run.size) items := by
  unfold insert
  rw [own, headerAt_putHeader]

theorem headerAt_insert_of_ne {j k : Nat} (own : handle.toNat = k * 12)
    (other : j ≠ k) (h : j * 12 + 12 ≤ sheet.headerLength)
    (room : sheet.headerLength ≤ sheet.headerCapacity) :
    (sheet.insert handle header run items).headerAt (j * 12) =
      (sheet.headerAt (j * 12)).raise header.dataEnd (.ofNat run.size) := by
  unfold insert
  rw [own, headerAt_putHeader_of_ne other, headerAt_raiseOthers, headerAt_spread (by omega)]
  · exact h
  · omega

theorem dataAt_insert (h : handle.toNat + 12 ≤ sheet.headerLength)
    (room : sheet.headerLength ≤ sheet.headerCapacity) :
    (sheet.insert handle header run items).dataAt offset count =
      (sheet.spread header.dataEnd run).dataAt offset count := by
  obtain ⟨tape, raised⟩ := (sheet.spread header.dataEnd run).raiseOthers_fields handle
    header.dataEnd run
  unfold insert
  rw [dataAt_putHeader (by rw [raised]; exact Nat.le_trans h room), dataAt_raiseOthers]
  exact room

end Insert

/-- A handle in use moves down if its header lies behind the one taken out. -/
theorem handleOf_lowerHandles (h : id < sheet.regionCount) :
    (sheet.lowerHandles handle).handleOf id =
      if sheet.handleOf id ≠ emptyHandle ∧ handle < sheet.handleOf id then
        sheet.handleOf id - UInt32.ofNat headerSize
      else sheet.handleOf id := by
  have place : handleOffset id = 0 + id * Layout.width UInt32 := (Nat.zero_add _).symm
  rw [handleOf, place]
  refine (Tape.read_editEach h).trans ?_
  rw [← place, ← handleOf]
  split
  · rw [Option.getD_some]
  · rw [Option.getD_none]

theorem headerAt_lowerHandles (h : sheet.regionCount * 4 ≤ sheet.handleCapacity) :
    (sheet.lowerHandles handle).headerAt offset = sheet.headerAt offset := by
  refine Tape.read_congr fun i below _ => Tape.editEach_apply (.inr ?_)
  simp only [lowerHandles, editHandles, width_handle] at below ⊢
  omega

theorem dataAt_lowerHandles (h : sheet.regionCount * 4 ≤ sheet.handleCapacity) :
    (sheet.lowerHandles handle).dataAt offset count = sheet.dataAt offset count := by
  refine Tape.stretch_congr fun i _ => Tape.editEach_apply (.inr ?_)
  simp only [lowerHandles, editHandles, width_handle, dataStart]
  omega

end Frame

end Sheet

end PooledBuffers.Regions
