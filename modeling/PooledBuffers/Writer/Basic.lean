import PooledBuffers.Span

/-!
# Writers

A writer puts elements one after another into memory that grows on demand. It starts on memory
lent by the caller or on rented memory, and moves to longer rented memory when what it has is
too short. To its user it is an endless tape of blank cells with a cursor.

* `Writer.cells`, `Writer.position` — the memory, and the cursor in it.
* `Writer.grownCapacity` — how long the memory is after a growth.
* `Writer.grow` — moves to longer memory; the old memory goes back only after the new one came.
* `Writer.append`, `Writer.appendRun`, `Writer.acquire`, `Writer.advance`, `Writer.advanceTo` —
  the operations that grow the memory where they need to.
* `Writer.moveWithin` — moves a stretch of cells, overlapping or not.
-/

namespace PooledBuffers

/-- Memory of a writer: where it started, or rented after a growth. In the second case `caller`
is the caller's memory as the writer left it. -/
inductive Writer.Backing (α : Type) where
  | initial (span : Span α)
  | grown (block : Block α) (caller : Option (Array α))
  deriving Repr

/-- Elements written one after another into memory that grows. -/
structure Writer (α : Type) where
  backing : Writer.Backing α
  /-- The length of the memory that the writer started on. -/
  initialLength : Nat
  /-- How much the first growth adds at least to the initial length. Rented memory counts as grown,
  so that nothing is added for it. -/
  minGrow : Option Nat
  position : Nat
  deriving Repr

namespace Writer

variable {α : Type}

/-- What a growth from nothing adds at least. -/
def fallbackGrowth : Nat := 256

/-! ## Memory of a writer -/

namespace Backing

def cells : Backing α → Array α
  | initial span => span.cells
  | grown block _ => block.cells

/-- The cells from `start` to before `stop`, as far as there are any. -/
def slice : Backing α → Nat → Nat → Array α
  | initial span, start, stop => span.slice start stop
  | grown block _, start, stop => block.slice start stop

def length : Backing α → Nat
  | initial span => span.length
  | grown block _ => block.length

/-- The caller's memory as the writer leaves it. -/
def caller : Backing α → Option (Array α)
  | initial span => span.caller
  | grown _ caller => caller

def isGrown : Backing α → Bool
  | initial _ => false
  | grown .. => true

/-- Applies an edit that keeps the size and stays within the memory shown. -/
def edit (backing : Backing α) (f : Array α → Array α) : Backing α :=
  match backing with
  | initial span => initial (span.edit f)
  | grown block caller => grown (block.edit f) caller

/-- Gives the memory back; a writer that never grew stays on its released span. -/
def dispose [Element α] (backing : Backing α) (pool : Pool α) : Backing α × Pool α :=
  match backing with
  | initial span =>
    let (span, pool) := span.dispose pool
    (initial span, pool)
  | grown block caller =>
    let (block, pool) := block.dispose pool
    (grown block caller, pool)

end Backing

/-! ## Making a writer -/

/-- A writer on memory that the caller lends. -/
def onMemory (cells : Array α) : Writer α where
  backing := .initial (.borrowed cells)
  initialLength := cells.size
  minGrow := none
  position := 0

/-- A writer on rented memory of blank cells; it counts as grown from the start. -/
def withCapacity [Element α] (pool : Pool α) (length : Nat) : Writer α × Pool α :=
  let (block, pool) := Block.rent pool length true
  ({ backing := .grown block none, initialLength := length, minGrow := none, position := 0 },
    pool)

/-- The writer with a least length for its first growth. -/
def withMinGrow (writer : Writer α) (length : Nat) : Writer α :=
  { writer with minGrow := some length }

/-! ## Views -/

/-- The whole memory, past the cursor too. -/
def cells (writer : Writer α) : Array α := writer.backing.cells

/-- The `count` cells from `start` on, as far as there are any. -/
def slice (writer : Writer α) (start count : Nat) : Array α :=
  writer.backing.slice start (start + count)

/-- The number of cells before the writer has to grow. -/
def capacity (writer : Writer α) : Nat := writer.backing.length

/-- The number of cells from the cursor to the end. -/
def freeCapacity (writer : Writer α) : Nat := writer.capacity - writer.position

/-- The cells before the cursor. -/
def written (writer : Writer α) : Array α := writer.slice 0 writer.position

/-- Whether the memory is rented after a growth, or was rented to start on. -/
def isGrown (writer : Writer α) : Bool := writer.backing.isGrown

/-- The memory lent by the caller as the writer leaves it. -/
def caller (writer : Writer α) : Option (Array α) := writer.backing.caller

/-! ## Growth -/

/-- The capacity after a growth by at least `requested` cells. The first growth of lent memory adds
the least length the caller asked for, if that is enough; any other growth doubles the capacity or
adds what is requested, whichever is more. None goes past `Size.maxCapacity`. -/
def grownCapacity (writer : Writer α) (requested : Nat) : Nat :=
  let capacity := writer.capacity
  let byDoubling := Size.add capacity
    (if 0 < capacity then max requested capacity else max requested fallbackGrowth)
  let wanted :=
    match writer.minGrow with
    | some least =>
      if !writer.isGrown && requested ≤ least then Size.add writer.initialLength least
      else byDoubling
    | none => byDoubling
  min (max wanted (Size.add capacity requested)) Size.maxCapacity

/-- Moves the contents to rented memory that is longer by at least `requested` cells. The cells
added are blank, and the old memory goes back once the new one is there. -/
def grow [Element α] (writer : Writer α) (requested : Nat) (pool : Pool α) :
    Writer α × Pool α :=
  let old := writer.cells
  let length := writer.grownCapacity requested
  let (block, pool) := Block.rent pool length false
  let block := block.edit fun cells =>
    Storage.overwrite (Storage.overwrite cells 0 old) old.size
      (Storage.blank (length - old.size))
  let (released, pool) := writer.backing.dispose pool
  ({ writer with backing := .grown block released.caller }, pool)

/-- Grows if fewer than `count` cells are left from the cursor on. -/
def ensureFree [Element α] (writer : Writer α) (count : Nat) (pool : Pool α) :
    Writer α × Pool α :=
  if writer.freeCapacity < count then writer.grow (count - writer.freeCapacity) pool
  else (writer, pool)

/-- Grows if the capacity is below `length`. -/
def ensureCapacity [Element α] (writer : Writer α) (length : Nat) (pool : Pool α) :
    Writer α × Pool α :=
  if writer.capacity < length then writer.grow (length - writer.capacity) pool
  else (writer, pool)

/-! ## Writing -/

/-- Applies an edit that keeps the size to the whole memory. -/
def edit (writer : Writer α) (f : Array α → Array α) : Writer α :=
  { writer with backing := writer.backing.edit f }

/-- Writes one element at the cursor and steps over it. -/
def append [Element α] (writer : Writer α) (value : α) (pool : Pool α) : Writer α × Pool α :=
  let (writer, pool) := writer.ensureFree 1 pool
  let position := writer.position
  ({ writer with
      backing := writer.backing.edit (·.setIfInBounds position value)
      position := position + 1 },
    pool)

/-- Writes a run of elements at the cursor and steps over it. -/
def appendRun [Element α] (writer : Writer α) (run : Array α) (pool : Pool α) :
    Writer α × Pool α :=
  let (writer, pool) := writer.ensureFree run.size pool
  let position := writer.position
  ({ writer with
      backing := writer.backing.edit (Storage.overwrite · position run)
      position := position + run.size },
    pool)

/-- Writes the elements of a run one by one. -/
def appendEach [Element α] (writer : Writer α) (run : Array α) (pool : Pool α) :
    Writer α × Pool α :=
  run.foldl (fun (writer, pool) value => writer.append value pool) (writer, pool)

/-- Makes `count` cells at the cursor available, answers what they hold, and copies `content`
over their start. The cursor steps over them if asked to. -/
def acquire [Element α] (writer : Writer α) (count : Nat) (movePosition : Bool)
    (content : Array α) (pool : Pool α) : Array α × Writer α × Pool α :=
  let (writer, pool) := writer.ensureFree count pool
  let position := writer.position
  let handed := writer.slice position count
  (handed,
    { writer with
      backing := writer.backing.edit (Storage.overwrite · position (content.extract 0 count))
      position := if movePosition then position + count else position },
    pool)

/-- Steps over `count` cells. -/
def advance [Element α] (writer : Writer α) (count : Nat) (pool : Pool α) :
    Writer α × Pool α :=
  let (writer, pool) := writer.ensureFree count pool
  ({ writer with position := writer.position + count }, pool)

/-- Puts the cursor at a position, which may lie past the capacity. -/
def advanceTo [Element α] (writer : Writer α) (position : Nat) (pool : Pool α) :
    Writer α × Pool α :=
  let (writer, pool) := writer.ensureCapacity position pool
  ({ writer with position := position }, pool)

/-- Puts the cursor at a position up to the capacity. -/
def setPosition (writer : Writer α) (position : Nat) : Except Error (Writer α) :=
  if writer.capacity < position then
    .error (.outOfRange "position" position writer.capacity)
  else .ok { writer with position := position }

/-- Puts the cursor at the start. -/
def reset (writer : Writer α) : Writer α :=
  { writer with position := 0 }

/-- Stores one value into every cell of the memory. -/
def fill (writer : Writer α) (value : α) : Writer α :=
  writer.edit (Storage.overwrite · 0 (Array.replicate writer.capacity value))

/-- Stores a value into a cell of the memory. -/
def set? (writer : Writer α) (index : Nat) (value : α) : Option (Writer α) :=
  if index < writer.capacity then some (writer.edit (·.setIfInBounds index value)) else none

/-- Stores a value into a cell before the cursor. -/
def setWritten? (writer : Writer α) (index : Nat) (value : α) : Option (Writer α) :=
  if index < writer.position then writer.set? index value else none

/-- Gives the memory back. The writer can be used again and starts from nothing. -/
def dispose [Element α] (writer : Writer α) (pool : Pool α) : Writer α × Pool α :=
  let (backing, pool) := writer.backing.dispose pool
  ({ writer with backing := backing, position := 0 }, pool)

/-! ## Moving cells -/

/-- Moves `size` cells from `start` to `target`, as they were before the move, and puts the
cursor behind them if asked to. The cells moved have to lie within the capacity; the target may
lie past it. Moving nothing, or moving onto itself, leaves the cursor where it is. -/
def moveWithin [Element α] (writer : Writer α) (start size target : Nat) (movePosition : Bool)
    (pool : Pool α) : Except Error (Writer α × Pool α) :=
  if writer.capacity < start + size then
    .error (.outOfRange "from_start + from_size" (Size.add start size) writer.capacity)
  else if size = 0 ∨ start = target then
    .ok (writer.ensureCapacity target pool)
  else if Size.maxCapacity < target + size then
    .error (.outOfRange "to_start + from_size" (Size.add target size) Size.maxCapacity)
  else
    let (writer, pool) := writer.ensureCapacity (target + size) pool
    .ok
      ({ writer with
          backing := writer.backing.edit (Storage.moveWithin · start size target)
          position := if movePosition then target + size else writer.position },
        pool)

instance : Describe (Writer α) where
  describe writer := Text.record "BufferWriter"
    [("position", describe writer.position), ("capacity", describe writer.capacity),
      ("grown", describe writer.isGrown), ("initial_min_grow", describe writer.minGrow)]

end Writer

end PooledBuffers
