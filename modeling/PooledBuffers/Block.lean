import PooledBuffers.Pool.Basic

/-!
# Blocks of rented memory

A block holds at most one lease and shows the first `length` of its cells. The array behind a
block may be longer than what it shows; the cells past the end keep what earlier users left.

* `Block.rent` — a block of a given length, its cells blank or as they were left.
* `Block.resize?` — another length, while the array has room for it.
* `Block.dispose` — gives the lease back; a block disposed once holds nothing to give.
-/

namespace PooledBuffers

/-- Rented memory with a length of its own. -/
structure Block (α : Type) where
  lease : Option (Lease α)
  length : Nat
  deriving Repr

namespace Block

variable {α : Type}

/-- Rents a block of `length` cells. Of a longer array only these are blanked. -/
def rent [Element α] (pool : Pool α) (length : Nat) (cleared : Bool) : Block α × Pool α :=
  let (lease, pool) := pool.rent length
  let cells := if cleared then Storage.blankFirst lease.cells length else lease.cells
  (⟨some { lease with cells := cells }, length⟩, pool)

/-- The whole array behind the block. -/
def physical (block : Block α) : Array α :=
  match block.lease with
  | some lease => lease.cells
  | none => #[]

/-- The length that the block can be resized to. -/
def capacity (block : Block α) : Nat := block.physical.size

/-- The cells that the block shows. -/
def cells (block : Block α) : Array α := block.physical.extract 0 block.length

/-- The cells from `start` to before `stop`, as far as the block shows them. -/
def slice (block : Block α) (start stop : Nat) : Array α :=
  block.physical.extract start (min stop block.length)

def isEmpty (block : Block α) : Bool := block.length = 0

def isDisposed (block : Block α) : Bool := block.lease.isNone

/-- Applies an edit to the array; it has to keep the array's size and leave the cells past the
block's length alone. -/
def edit (block : Block α) (f : Array α → Array α) : Block α :=
  match block with
  | ⟨some lease, length⟩ => ⟨some { lease with cells := f lease.cells }, length⟩
  | ⟨none, length⟩ => ⟨none, length⟩

/-- Stores a value into a cell that the block shows. -/
def set? (block : Block α) (index : Nat) (value : α) : Option (Block α) :=
  if index < block.length then some (block.edit (·.setIfInBounds index value)) else none

/-- Stores a value into every cell that the block shows. -/
def fill (block : Block α) (value : α) : Block α :=
  block.edit (Storage.overwrite · 0 (Array.replicate block.length value))

/-- The block with another length, unless its array is too short for it. -/
def resize? (block : Block α) (length : Nat) : Option (Block α) :=
  if block.capacity < length then none else some { block with length := length }

/-- Gives the lease back and shows nothing from then on. -/
def dispose [Element α] (block : Block α) (pool : Pool α) : Block α × Pool α :=
  match block.lease with
  | some lease => (⟨none, 0⟩, pool.giveBack lease)
  | none => (⟨none, 0⟩, pool)

instance : Describe (Block α) where
  describe block := Text.record "MemoryOwner"
    [("length", describe block.length), ("capacity", describe block.capacity),
      ("disposed", describe block.isDisposed)]

end Block

end PooledBuffers
