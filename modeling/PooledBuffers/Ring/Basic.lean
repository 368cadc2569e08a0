import PooledBuffers.Ring.Halves
import PooledBuffers.Ring.Window
import PooledBuffers.Span

/-!
# Rings

A ring holds the newest elements that were added to it, as many as it has slots. Its memory is
rented or lent by the caller; the two kinds differ in nothing else.

* `Ring.add` — adds an element; a full ring forgets its oldest one.
* `Ring.toArray`, `Ring.get?`, `Ring.halves` — the elements, oldest first.
* `Ring.openHalves`, `Ring.assign` — the elements as they lie open for changes, and changes to them.
-/

namespace PooledBuffers

/-- The newest elements of a sequence. -/
structure Ring (α : Type) where
  memory : Span α
  window : Window
  deriving Repr

namespace Ring

variable {α : Type}

/-- The refusal of a ring without slots. -/
def noSlots (parameter : String) : Error :=
  .invalidParameter parameter "ring capacity must be greater than 0"

/-- A ring on rented memory. -/
def rent [Element α] (pool : Pool α) (capacity : Nat) : Except Error (Ring α × Pool α) :=
  if capacity = 0 then .error (noSlots "capacity")
  else
    let (memory, pool) := Span.rent pool capacity
    .ok ({ memory := memory, window := { capacity := capacity } }, pool)

/-- A ring on memory lent by the caller, each cell a slot. -/
def lend (cells : Array α) : Except Error (Ring α) :=
  if cells.isEmpty then .error (noSlots "storage")
  else .ok { memory := .borrowed cells, window := { capacity := cells.size } }

/-! ## Views -/

def capacity (ring : Ring α) : Nat := ring.window.capacity

def length (ring : Ring α) : Nat := ring.window.count

def isEmpty (ring : Ring α) : Bool := ring.window.count = 0

def isFull (ring : Ring α) : Bool := ring.window.isFull

/-- The slots, in use or not. -/
def cells (ring : Ring α) : Array α := ring.memory.cells

/-- The elements, oldest first, as they lie before and behind the turn. -/
def halves (ring : Ring α) : Halves α :=
  let cells := ring.cells
  let window := ring.window
  ⟨cells.extract window.start (window.start + window.headLength),
    cells.extract 0 window.wrapped⟩

/-- The elements, oldest first, as they lie open for changes: the slots are cut in two in front of
the oldest element, and each stretch is the start of one part. -/
def openHalves (ring : Ring α) : Halves α :=
  let cells := ring.cells
  let window := ring.window
  let front := cells.extract 0 window.start
  let back := cells.extract window.start cells.size
  ⟨back.extract 0 window.headLength, front.extract 0 window.wrapped⟩

/-- The elements, oldest first. -/
def toArray (ring : Ring α) : Array α := ring.halves.toArray

/-- The element at an index, counted from the oldest. -/
def get? (ring : Ring α) (index : Nat) : Option α :=
  (ring.window.slot? index).bind fun slot => ring.cells[slot]?

/-- The element at an index that should be there. -/
def get (ring : Ring α) (index : Nat) : Except IndexFault α :=
  match ring.get? index with
  | some value => .ok value
  | none => .error ⟨.ring, index, ring.length⟩

/-! ## Changes -/

/-- Adds an element. -/
def add (ring : Ring α) (value : α) : Ring α :=
  let (slot, window) := ring.window.push
  { memory := ring.memory.edit (·.setIfInBounds slot value), window := window }

/-- Adds the elements of a run one by one. -/
def addEach (ring : Ring α) (run : Array α) : Ring α :=
  run.foldl add ring

/-- Stores a value at an index. -/
def set? (ring : Ring α) (index : Nat) (value : α) : Option (Ring α) :=
  (ring.window.slot? index).map fun slot =>
    { ring with memory := ring.memory.edit (·.setIfInBounds slot value) }

/-- Values stored over the elements from the oldest on, one each, until either runs out. -/
def assign (ring : Ring α) (run : Array α) : Ring α :=
  let window := ring.window
  let head := run.extract 0 window.headLength
  let tail := run.extract window.headLength (window.headLength + window.wrapped)
  { ring with
    memory := ring.memory.edit fun cells =>
      Storage.overwrite (Storage.overwrite cells window.start head) 0 tail }

/-- Forgets all elements and blanks all slots. -/
def clear [Element α] (ring : Ring α) : Ring α where
  memory := ring.memory.fill Element.blank
  window := ring.window.reset

/-- Gives the memory back. -/
def close [Element α] (ring : Ring α) (pool : Pool α) : Span α × Pool α :=
  ring.memory.dispose pool

instance [Describe α] : Describe (Ring α) := ⟨fun ring => describe ring.toArray⟩

end Ring

end PooledBuffers
