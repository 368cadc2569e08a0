import PooledBuffers.Regions.Header
import PooledBuffers.Writer.Typed

/-!
# Region stores

A region store keeps many growing byte strings, its regions, in one stretch of memory:

    handles | headers | data

Each region has a handle. The handle of a region with bytes holds the offset of its header, and
the header says where in the data area the bytes are. The areas in front grow by moving what is
behind them; bytes appended to one region move those of the regions behind it.

* `RegionStore.addRegion` — a new region without bytes.
* `RegionStore.append`, `RegionStore.appendValue` — bytes or a fixed-width value at a region's end.
* `RegionStore.span`, `RegionStore.readValue` — what a region holds.
* `RegionStore.clear` — empties a region and closes the gap that its bytes leave.
-/

namespace PooledBuffers

open PooledBuffers.Regions

/-- Byte strings that share one stretch of memory. -/
structure RegionStore where
  writer : Writer UInt8
  /-- The number of regions handed out. -/
  regionCount : Nat := 0
  /-- The length of the handle area. -/
  handleCapacity : Nat := 0
  /-- The length of the header area. -/
  headerCapacity : Nat := 0
  /-- How much of the header area is in use. -/
  headerLength : Nat := 0
  /-- The number of bytes that the regions hold together. -/
  dataLength : Nat := 0

namespace RegionStore

/-- The capacity of a store when none is asked for. -/
def defaultCapacity : Nat := 256

/-- A store on memory lent by the caller. -/
def onMemory (cells : Array UInt8) : RegionStore :=
  { writer := Writer.onMemory cells }

/-- A store on rented memory. -/
def withCapacity (pool : Pool UInt8) (length : Nat) : RegionStore × Pool UInt8 :=
  let (writer, pool) := Writer.withCapacity pool length
  ({ writer := writer }, pool)

/-! ## Layout -/

def headerStart (store : RegionStore) : Nat := store.handleCapacity

def dataStart (store : RegionStore) : Nat := store.handleCapacity + store.headerCapacity

def usedEnd (store : RegionStore) : Nat := store.dataStart + store.dataLength

/-- The number of regions with a header. -/
def activeCount (store : RegionStore) : Nat := store.headerLength / headerSize

/-- The memory in use, with the cells of the two areas in front that are not. -/
def bytes (store : RegionStore) : Array UInt8 := store.writer.written

/-- Where the handle of a region is. -/
def handleOffset (id : Nat) : Nat := id * handleSize

/-- The handle at a place in memory. -/
def handleAt (store : RegionStore) (place : Nat) : UInt32 :=
  Layout.ofBytes .little (store.writer.slice place handleSize)

/-- The header at an offset into the header area. -/
def headerAt (store : RegionStore) (offset : Nat) : Header :=
  Layout.ofBytes .little (store.writer.slice (store.headerStart + offset) headerSize)

/-- The offsets of all headers. -/
def headerOffsets (store : RegionStore) : List Nat :=
  (List.range store.activeCount).map (· * headerSize)

/-- Writes bytes over memory that is there. -/
def put (store : RegionStore) (place : Nat) (run : Array UInt8) : RegionStore :=
  { store with writer := store.writer.edit (Storage.overwrite · place run) }

def putHandle (store : RegionStore) (place : Nat) (handle : UInt32) : RegionStore :=
  store.put place (Layout.bytes .little handle)

def putHeader (store : RegionStore) (offset : Nat) (header : Header) : RegionStore :=
  store.put (store.headerStart + offset) (Layout.bytes .little header)

/-- The handle and header of a region; none for a region without bytes. -/
def header? (store : RegionStore) (id : Nat) : Except Error (Option (UInt32 × Header)) :=
  if store.regionCount ≤ id then .error (.regionNotFound id)
  else
    let handle := store.handleAt (handleOffset id)
    if handle = emptyHandle then .ok none
    else .ok (some (handle, store.headerAt handle.toNat))

/-- Applies a function to the headers of all regions but one. -/
def updateOthers (store : RegionStore) (handle : UInt32) (f : Header → Header) : RegionStore :=
  store.headerOffsets.foldl
    (fun store offset =>
      if offset = handle.toNat then store else store.putHeader offset (f (store.headerAt offset)))
    store

/-- Puts the writer's cursor behind the memory in use. -/
def syncPosition (store : RegionStore) (pool : Pool UInt8) : RegionStore × Pool UInt8 :=
  let (writer, pool) := store.writer.advanceTo store.usedEnd pool
  ({ store with writer := writer }, pool)

/-- Moves a stretch of memory, with growth where the target needs it. -/
def move (store : RegionStore) (start size target : Nat) (pool : Pool UInt8) :
    Except Error (RegionStore × Pool UInt8) := do
  let (writer, pool) ← store.writer.moveWithin start size target false pool
  return ({ store with writer := writer }, pool)

/-- Makes room for `needed` bytes of handles, twice as much as before at least. -/
def growHandles (store : RegionStore) (needed : Nat) (pool : Pool UInt8) :
    Except Error (RegionStore × Pool UInt8) := do
  if needed ≤ store.handleCapacity then return (store, pool)
  let capacity := max needed (store.handleCapacity * 2)
  let (store, pool) ←
    store.move store.handleCapacity (store.headerCapacity + store.dataLength) capacity pool
  return ({ store with handleCapacity := capacity }, pool)

/-- Makes room for `needed` bytes of headers, twice as much as before at least. -/
def growHeaders (store : RegionStore) (needed : Nat) (pool : Pool UInt8) :
    Except Error (RegionStore × Pool UInt8) := do
  if needed ≤ store.headerCapacity then return (store, pool)
  let capacity := max needed (store.headerCapacity * 2)
  let (store, pool) ←
    store.move store.dataStart store.dataLength (store.handleCapacity + capacity) pool
  return ({ store with headerCapacity := capacity }, pool)

/-- The largest number that a handle or a header can hold. -/
def maxWord : Nat := 0xFFFFFFFF

/-- A number that has to fit a handle or a header. -/
def checkWord (value : Nat) (parameter : String) : Except Error UInt32 :=
  if maxWord < value then .error (.outOfRange parameter value maxWord)
  else .ok (UInt32.ofNat value)

/-! ## Regions -/

/-- Adds a region without bytes and answers its number. -/
def addRegion (store : RegionStore) (pool : Pool UInt8) :
    Except Error (Nat × RegionStore × Pool UInt8) := do
  let id := store.regionCount
  if maxWord < id + 1 then throw (.outOfRange "region_count" maxWord (maxWord - 1))
  let (store, pool) ← store.growHandles ((id + 1) * handleSize) pool
  let store := { store with regionCount := id + 1 }
  let (store, pool) := (store.putHandle (handleOffset id) emptyHandle).syncPosition pool
  return (id, store, pool)

/-- Gives a region without bytes a header at the end of the header area. -/
def openRegion (store : RegionStore) (id : Nat) (pool : Pool UInt8) :
    Except Error ((UInt32 × Header) × RegionStore × Pool UInt8) := do
  let (store, pool) ← store.growHeaders (store.headerLength + headerSize) pool
  let handle ← checkWord store.headerLength "header offset"
  let offset ← checkWord store.dataLength "data offset"
  let header : Header := { dataOffset := offset }
  let store := { store with headerLength := store.headerLength + headerSize }
  let store := (store.putHeader handle.toNat header).putHandle (handleOffset id) handle
  return ((handle, header), store, pool)

/-- Puts bytes at the end of a region and counts `items` values. What lies behind moves up. -/
def appendItems (store : RegionStore) (id : Nat) (run : Array UInt8) (items : Nat)
    (pool : Pool UInt8) : Except Error (RegionStore × Pool UInt8) := do
  let added ← checkWord run.size "bytes.len()"
  let _ ← checkWord (Size.add store.dataLength run.size) "data length"
  let ((handle, header), store, pool) ←
    match ← store.header? id with
    | some found => pure (found, store, pool)
    | none => store.openRegion id pool
  let place := store.dataStart + header.dataEnd
  let usedEnd := store.usedEnd
  let (writer, pool) := store.writer.advanceTo (usedEnd + run.size) pool
  let (store, pool) ←
    { store with writer := writer }.move place (usedEnd - place) (place + run.size) pool
  let store := store.put place run
  let store := { store with dataLength := store.dataLength + run.size }
  let store :=
    if run.isEmpty then store
    else store.updateOthers handle fun other =>
      if header.dataEnd ≤ other.dataOffset.toNat then
        { other with dataOffset := other.dataOffset + added }
      else other
  let count := min (header.count.toNat + items) maxWord
  let store := store.putHeader handle.toNat
    { header with dataLength := header.dataLength + added, count := UInt32.ofNat count }
  return store.syncPosition pool

/-- Puts bytes at the end of a region. -/
def append (store : RegionStore) (id : Nat) (run : Array UInt8) (pool : Pool UInt8) :
    Except Error (RegionStore × Pool UInt8) :=
  store.appendItems id run 0 pool

/-- Puts a fixed-width value at the end of a region, where it counts as one item. Values too wide
to swap are refused. -/
def appendValue {τ : Type} [Layout τ] (store : RegionStore) (id : Nat) (value : τ)
    (pool : Pool UInt8) : Except Error (RegionStore × Pool UInt8) := do
  Layout.checkOrder τ .big
  store.appendItems id (Layout.bytes .little value) 1 pool

/-- Where in memory the bytes of a region are: from the first number to before the second. -/
def range (store : RegionStore) (id : Nat) : Except Error (Nat × Nat) := do
  match ← store.header? id with
  | some (_, header) =>
    let start := store.dataStart + header.dataOffset.toNat
    return (start, start + header.dataLength.toNat)
  | none => return (0, 0)

/-- The bytes of a region. -/
def span (store : RegionStore) (id : Nat) : Except Error (Array UInt8) := do
  let (start, stop) ← store.range id
  return store.writer.slice start (stop - start)

/-- Stores a byte into a region; nothing when the index is outside. -/
def setSpan? (store : RegionStore) (id index : Nat) (value : UInt8) :
    Except Error (Option RegionStore) := do
  let (start, stop) ← store.range id
  return if index < stop - start then some (store.put (start + index) #[value]) else none

/-- The number of bytes of a region. -/
def spanLength (store : RegionStore) (id : Nat) : Except Error Nat := do
  return match ← store.header? id with
    | some (_, header) => header.dataLength.toNat
    | none => 0

/-- The number of values appended to a region. -/
def itemCount (store : RegionStore) (id : Nat) : Except Error Nat := do
  return match ← store.header? id with
    | some (_, header) => header.count.toNat
    | none => 0

/-- The value at an index, if a region held values of this type only. -/
def readValue (τ : Type) [Layout τ] (store : RegionStore) (id index : Nat) : Except Error τ := do
  let span ← store.span id
  let start := Size.mul index (Layout.width τ)
  if start + Layout.width τ ≤ span.size then
    return Layout.ofBytes .little (span.extract start (start + Layout.width τ))
  else throw (.unexpectedEnd .buffer (Size.add start (Layout.width τ)) span.size)

/-- The store with the data of a region taken out: what lies behind moves down. -/
def removeData (store : RegionStore) (handle : UInt32) (removed : Header) (pool : Pool UInt8) :
    Except Error (RegionStore × Pool UInt8) := do
  if removed.dataLength = 0 then return (store, pool)
  let start := store.dataStart + removed.dataOffset.toNat
  let tail := start + removed.dataLength.toNat
  let (store, pool) ← store.move tail (store.usedEnd - tail) start pool
  let store := { store with dataLength := store.dataLength - removed.dataLength.toNat }
  return (store.updateOthers handle fun other =>
      if removed.dataEnd ≤ other.dataOffset.toNat then
        { other with dataOffset := other.dataOffset - removed.dataLength }
      else other,
    pool)

/-- The store with a header taken out: the headers behind it move down, and the handles follow
them. -/
def removeHeader (store : RegionStore) (handle : UInt32) (pool : Pool UInt8) :
    Except Error (RegionStore × Pool UInt8) := do
  let place := store.headerStart + handle.toNat
  let behind := place + headerSize
  let (store, pool) ←
    store.move behind (store.headerStart + store.headerLength - behind) place pool
  let store := { store with headerLength := store.headerLength - headerSize }
  let store := (List.range store.regionCount).foldl
    (fun store other =>
      let value := store.handleAt (handleOffset other)
      if value ≠ emptyHandle ∧ handle < value then
        store.putHandle (handleOffset other) (value - UInt32.ofNat headerSize)
      else store)
    store
  return (store, pool)

/-- Empties a region. -/
def clear (store : RegionStore) (id : Nat) (pool : Pool UInt8) :
    Except Error (RegionStore × Pool UInt8) := do
  match ← store.header? id with
  | none => return (store, pool)
  | some (handle, removed) =>
    let (store, pool) ← store.removeData handle removed pool
    let (store, pool) ← store.removeHeader handle pool
    return (store.putHandle (handleOffset id) emptyHandle).syncPosition pool

/-- Gives the memory back; the store has no regions from then on. -/
def dispose (store : RegionStore) (pool : Pool UInt8) : RegionStore × Pool UInt8 :=
  let (writer, pool) := store.writer.dispose pool
  ({ writer := writer }, pool)

instance : Describe RegionStore where
  describe store := Text.record "RegionByteBuffer"
    [("region_count", describe store.regionCount),
      ("active_regions", describe store.activeCount),
      ("handle_capacity", describe store.handleCapacity),
      ("header_capacity", describe store.headerCapacity),
      ("data_length", describe store.dataLength)]

end RegionStore

end PooledBuffers
