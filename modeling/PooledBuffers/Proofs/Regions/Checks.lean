import PooledBuffers.Proofs.Bounds
import PooledBuffers.Proofs.Regions.Sheet
import PooledBuffers.Proofs.Writer.Checks

/-!
# Bounds that a region store relies on

Every operation of a store reads and writes stretches of memory, adds and subtracts offsets, and
calls on its writer. The definitions below go through the operations and check each of these
bounds, at the state in which it is needed: stretches lie in memory, differences are not negative,
and 32-bit sums do not exceed the largest word. Longer operations are first cut into steps.
-/

namespace PooledBuffers.RegionStore

open PooledBuffers.Regions

/-! ## Steps of the longer operations -/

/-- Moves the data from `stop` on up and puts a run into the gap. -/
def spread (store : RegionStore) (stop : Nat) (run : Array UInt8) (pool : Pool UInt8) :
    Except Error (RegionStore × Pool UInt8) := do
  let place := store.dataStart + stop
  let (writer, rest) := store.writer.advanceTo (store.usedEnd + run.size) pool
  let (moved, rest) ←
    { store with writer := writer }.move place (store.usedEnd - place) (place + run.size) rest
  let placed := moved.put place run
  return ({ placed with dataLength := placed.dataLength + run.size }, rest)

def raiseOthers (store : RegionStore) (handle : UInt32) (stop : Nat) (run : Array UInt8) :
    RegionStore :=
  if run.isEmpty then store
  else store.updateOthers handle (·.raise stop (UInt32.ofNat run.size))

/-- Puts a run behind the bytes of a region, whose header is given. -/
def insert (store : RegionStore) (handle : UInt32) (header : Header) (run : Array UInt8)
    (items : Nat) (pool : Pool UInt8) : Except Error (RegionStore × Pool UInt8) := do
  let (spread, rest) ← store.spread header.dataEnd run pool
  return ((spread.raiseOthers handle header.dataEnd run).putHeader handle.toNat
    (header.extend (UInt32.ofNat run.size) items)).syncPosition rest

/-- Puts an empty header behind the last one and lets the handle of a region point to it. -/
def placeHeader (store : RegionStore) (id : Nat) : RegionStore :=
  let handle := UInt32.ofNat store.headerLength
  ({ store with headerLength := store.headerLength + headerSize }.putHeader handle.toNat
    { dataOffset := UInt32.ofNat store.dataLength }).putHandle (handleOffset id) handle

/-- The handle and header of a region, which is given one if it has none. -/
def locate (store : RegionStore) (id : Nat) (pool : Pool UInt8) :
    Except Error ((UInt32 × Header) × RegionStore × Pool UInt8) := do
  match ← store.header? id with
  | some found => pure (found, store, pool)
  | none => store.openRegion id pool

theorem appendItems_eq {store : RegionStore} {run : Array UInt8} (short : run.size ≤ maxWord)
    (fits : store.dataLength + run.size ≤ maxWord) (id items : Nat) (pool : Pool UInt8) :
    store.appendItems id run items pool = (do
      let ((handle, header), store, pool) ← store.locate id pool
      store.insert handle header run items pool) := by
  have added : checkWord run.size "bytes.len()" = .ok (UInt32.ofNat run.size) :=
    if_neg (Nat.not_lt.2 short)
  have exact : Size.add store.dataLength run.size = store.dataLength + run.size :=
    Size.add_eq (Nat.le_trans fits (by decide))
  have total : checkWord (Size.add store.dataLength run.size) "data length" =
      .ok (UInt32.ofNat (store.dataLength + run.size)) := by
    rw [exact]
    exact if_neg (Nat.not_lt.2 fits)
  have inserted (found : (UInt32 × Header) × RegionStore × Pool UInt8) :
      found.2.1.insert found.1.1 found.1.2 run items found.2.2 = (do
        let ((handle, header), store, pool) := found
        let place := store.dataStart + header.dataEnd
        let usedEnd := store.usedEnd
        let (writer, pool) := store.writer.advanceTo (usedEnd + run.size) pool
        let (store, pool) ←
          { store with writer := writer }.move place (usedEnd - place) (place + run.size) pool
        let store := store.put place run
        let store := { store with dataLength := store.dataLength + run.size }
        let store := store.raiseOthers handle header.dataEnd run
        return (store.putHeader handle.toNat
          (header.extend (UInt32.ofNat run.size) items)).syncPosition pool) := by
    unfold insert spread
    simp only
    cases RegionStore.move _ _ _ _ _ <;> simp only [bind, Except.bind, pure, Except.pure]
  unfold appendItems locate
  rw [added, total]
  cases store.header? id with
  | error e => rfl
  | ok found =>
    cases found with
    | some found => exact (inserted (found, store, pool)).symm
    | none =>
      show (store.openRegion id pool >>= _) = (store.openRegion id pool >>= _)
      congr 1
      funext opened
      exact (inserted opened).symm

/-! ## The checks, in the order of the operations -/

/-- What a step that may be refused hands on to the next check; a refusal relies on nothing. -/
def whenDone {β : Type} (result : Except Error β) (next : β → Except Overrun Unit) :
    Except Overrun Unit :=
  match result with
  | .ok value => next value
  | .error _ => .ok ()

def checkHandle (store : RegionStore) (id : Nat) : Except Overrun Unit :=
  store.writer.checkStretch (handleOffset id) handleSize

def checkHeader (store : RegionStore) (offset : Nat) : Except Overrun Unit :=
  store.writer.checkStretch (store.headerStart + offset) headerSize

/-- The checks of looking a region up. -/
def checkFind (store : RegionStore) (id : Nat) : Except Overrun Unit :=
  if store.regionCount ≤ id then .ok ()
  else do
    store.checkHandle id
    let handle := store.handleAt (handleOffset id)
    if handle ≠ emptyHandle then store.checkHeader handle.toNat

def checkSync (store : RegionStore) (pool : Pool UInt8) : Except Overrun Unit := do
  demand store.usedEnd Size.top
  store.writer.checkEnsureCapacity store.usedEnd pool

def checkGrowHandles (store : RegionStore) (needed : Nat) (pool : Pool UInt8) :
    Except Overrun Unit := do
  if store.handleCapacity < needed then
    demand (store.handleCapacity * 2) Size.top
    demand (store.headerCapacity + store.dataLength) Size.top
    store.writer.checkMove store.handleCapacity (store.headerCapacity + store.dataLength)
      (max needed (store.handleCapacity * 2)) pool

def checkGrowHeaders (store : RegionStore) (needed : Nat) (pool : Pool UInt8) :
    Except Overrun Unit := do
  if store.headerCapacity < needed then
    demand (store.headerCapacity * 2) Size.top
    demand (store.handleCapacity + max needed (store.headerCapacity * 2)) Size.top
    store.writer.checkMove store.dataStart store.dataLength
      (store.handleCapacity + max needed (store.headerCapacity * 2)) pool

def checkAddRegion (store : RegionStore) (pool : Pool UInt8) : Except Overrun Unit := do
  let id := store.regionCount
  if id + 1 ≤ maxWord then
    store.checkGrowHandles ((id + 1) * handleSize) pool
    whenDone (store.growHandles ((id + 1) * handleSize) pool) fun (grown, pool) => do
      let added := { grown with regionCount := id + 1 }
      added.checkHandle id
      (added.putHandle (handleOffset id) emptyHandle).checkSync pool

def checkPlaceHeader (store : RegionStore) (id : Nat) : Except Overrun Unit := do
  let opened := { store with headerLength := store.headerLength + headerSize }
  let handle := UInt32.ofNat store.headerLength
  opened.checkHeader handle.toNat
  (opened.putHeader handle.toNat { dataOffset := UInt32.ofNat store.dataLength }).checkHandle id

def checkOpen (store : RegionStore) (id : Nat) (pool : Pool UInt8) : Except Overrun Unit := do
  store.checkGrowHeaders (store.headerLength + headerSize) pool
  whenDone (store.growHeaders (store.headerLength + headerSize) pool) fun (grown, _) => do
    if grown.headerLength ≤ maxWord ∧ grown.dataLength ≤ maxWord then
      grown.checkPlaceHeader id

/-- The checks of an edit of all headers but one. `bound` is what the edit itself relies on. -/
def checkOthers (handle : UInt32) (f : Header → Header) (bound : Header → Except Overrun Unit) :
    RegionStore → List Nat → Except Overrun Unit
  | _, [] => .ok ()
  | store, offset :: rest =>
    if offset = handle.toNat then checkOthers handle f bound store rest
    else do
      store.checkHeader offset
      bound (store.headerAt offset)
      checkOthers handle f bound (store.putHeader offset (f (store.headerAt offset))) rest

def checkSpread (store : RegionStore) (stop : Nat) (run : Array UInt8) (pool : Pool UInt8) :
    Except Overrun Unit := do
  let place := store.dataStart + stop
  demand place store.usedEnd
  demand (store.usedEnd + run.size) Size.top
  store.writer.checkEnsureCapacity (store.usedEnd + run.size) pool
  let (writer, rest) := store.writer.advanceTo (store.usedEnd + run.size) pool
  writer.checkMove place (store.usedEnd - place) (place + run.size) rest
  whenDone ({ store with writer := writer }.move place (store.usedEnd - place) (place + run.size)
    rest) fun (moved, _) => moved.writer.checkStretch place run.size

def checkRaise (store : RegionStore) (handle : UInt32) (stop : Nat) (run : Array UInt8) :
    Except Overrun Unit := do
  if !run.isEmpty then
    checkOthers handle (·.raise stop (UInt32.ofNat run.size))
      (fun other =>
        if stop ≤ other.dataOffset.toNat then demand (other.dataOffset.toNat + run.size) maxWord
        else .ok ())
      store store.headerOffsets

def checkInsert (store : RegionStore) (handle : UInt32) (header : Header) (run : Array UInt8)
    (items : Nat) (pool : Pool UInt8) : Except Overrun Unit := do
  demand (header.dataLength.toNat + run.size) maxWord
  store.checkSpread header.dataEnd run pool
  whenDone (store.spread header.dataEnd run pool) fun (spread, rest) => do
    spread.checkRaise handle header.dataEnd run
    let raised := spread.raiseOthers handle header.dataEnd run
    raised.checkHeader handle.toNat
    (raised.putHeader handle.toNat (header.extend (UInt32.ofNat run.size) items)).checkSync rest

def checkLocate (store : RegionStore) (id : Nat) (pool : Pool UInt8) : Except Overrun Unit := do
  store.checkFind id
  whenDone (store.header? id) fun
    | some _ => .ok ()
    | none => store.checkOpen id pool

def checkAppend (store : RegionStore) (id : Nat) (run : Array UInt8) (items : Nat)
    (pool : Pool UInt8) : Except Overrun Unit := do
  if run.size ≤ maxWord ∧ store.dataLength + run.size ≤ maxWord then
    store.checkLocate id pool
    whenDone (store.locate id pool) fun ((handle, header), store, pool) =>
      store.checkInsert handle header run items pool

/-- The checks of the bytes of a region. -/
def checkSpan (store : RegionStore) (id : Nat) : Except Overrun Unit := do
  store.checkFind id
  whenDone (store.range id) fun (start, stop) => do
    demand start stop
    store.writer.checkStretch start (stop - start)

def checkRemoveData (store : RegionStore) (handle : UInt32) (removed : Header)
    (pool : Pool UInt8) : Except Overrun Unit := do
  let start := store.dataStart + removed.dataOffset.toNat
  let tail := start + removed.dataLength.toNat
  demand tail store.usedEnd
  if removed.dataLength ≠ 0 then
    store.writer.checkMove tail (store.usedEnd - tail) start pool
    whenDone (store.move tail (store.usedEnd - tail) start pool) fun (moved, _) => do
      demand removed.dataLength.toNat moved.dataLength
      checkOthers handle (·.lower removed.dataEnd removed.dataLength)
        (fun other =>
          if removed.dataEnd ≤ other.dataOffset.toNat then
            demand removed.dataLength.toNat other.dataOffset.toNat
          else .ok ())
        { moved with dataLength := moved.dataLength - removed.dataLength.toNat }
        moved.headerOffsets

/-- The checks of letting the handles follow the headers. -/
def checkHandles (handle : UInt32) : RegionStore → List Nat → Except Overrun Unit
  | _, [] => .ok ()
  | store, id :: rest => do
    store.checkHandle id
    let value := store.handleAt (handleOffset id)
    if value ≠ emptyHandle ∧ handle < value then
      demand headerSize value.toNat
      checkHandles handle (store.putHandle (handleOffset id) (value - UInt32.ofNat headerSize)) rest
    else checkHandles handle store rest

def checkRemoveHeader (store : RegionStore) (handle : UInt32) (pool : Pool UInt8) :
    Except Overrun Unit := do
  let place := store.headerStart + handle.toNat
  let behind := place + headerSize
  demand behind (store.headerStart + store.headerLength)
  store.writer.checkMove behind (store.headerStart + store.headerLength - behind) place pool
  whenDone (store.move behind (store.headerStart + store.headerLength - behind) place pool)
    fun (moved, _) => do
      demand headerSize moved.headerLength
      checkHandles handle { moved with headerLength := moved.headerLength - headerSize }
        (List.range moved.regionCount)

def checkClear (store : RegionStore) (id : Nat) (pool : Pool UInt8) : Except Overrun Unit := do
  store.checkFind id
  whenDone (store.header? id) fun
    | none => .ok ()
    | some (handle, removed) => do
      store.checkRemoveData handle removed pool
      whenDone (store.removeData handle removed pool) fun (without, pool) => do
        without.checkRemoveHeader handle pool
        whenDone (without.removeHeader handle pool) fun (last, pool) => do
          last.checkHandle id
          (last.putHandle (handleOffset id) emptyHandle).checkSync pool

end PooledBuffers.RegionStore
