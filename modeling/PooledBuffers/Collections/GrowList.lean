import PooledBuffers.Block

/-!
# Growing lists

A list in a block of rented memory. The block's length is the list's capacity; a list that needs
more first takes what its array has to spare and moves to a longer array after that.

* `GrowList.add`, `GrowList.addRange`, `GrowList.reserve`, `GrowList.trim` — the operations that
  may move the list.
* `GrowList.toArray`, `GrowList.get?`, `GrowList.indexOf?` — its elements.
-/

namespace PooledBuffers

/-- A list in rented memory. -/
structure GrowList (α : Type) where
  block : Block α
  length : Nat
  deriving Repr

namespace GrowList

variable {α : Type}

/-- An empty list with room for some elements. -/
def withCapacity [Element α] (pool : Pool α) (capacity : Nat) : GrowList α × Pool α :=
  let (block, pool) := Block.rent pool capacity true
  ({ block := block, length := 0 }, pool)

/-! ## Views -/

/-- The number of elements that fit before the list has to grow. -/
def capacity (list : GrowList α) : Nat := list.block.length

def isEmpty (list : GrowList α) : Bool := list.length = 0

/-- The elements in order. -/
def toArray (list : GrowList α) : Array α := list.block.slice 0 list.length

/-- The element at an index. -/
def get? (list : GrowList α) (index : Nat) : Option α := list.toArray[index]?

/-- The element at an index that should be there. -/
def get (list : GrowList α) (index : Nat) : Except IndexFault α :=
  match list.get? index with
  | some value => .ok value
  | none => .error ⟨.cells, index, list.length⟩

/-- The index of the first element equal to a value. -/
def indexOf? [BEq α] (list : GrowList α) (value : α) : Option Nat :=
  list.toArray.findIdx? (· == value)

/-- Whether some element equals a value. -/
def contains [BEq α] (list : GrowList α) (value : α) : Bool :=
  list.toArray.any (· == value)

/-! ## Growth -/

/-- Moves the elements to new memory for `capacity` of them; the old memory goes back once the new
one is there. -/
def relocate [Element α] (list : GrowList α) (capacity : Nat) (pool : Pool α) :
    GrowList α × Pool α :=
  let elements := list.toArray
  let (block, pool) := Block.rent pool capacity true
  let (_, pool) := list.block.dispose pool
  ({ list with block := block.edit (Storage.overwrite · 0 elements) }, pool)

/-- Makes the capacity at least `capacity`. -/
def reserve [Element α] (list : GrowList α) (capacity : Nat) (pool : Pool α) :
    GrowList α × Pool α :=
  if capacity ≤ list.capacity then (list, pool)
  else
    match list.block.resize? capacity with
    | some block => ({ list with block := block }, pool)
    | none => list.relocate capacity pool

/-- Gives up the capacity that is not in use. -/
def trim [Element α] (list : GrowList α) (pool : Pool α) : GrowList α × Pool α :=
  if list.capacity ≤ list.length then (list, pool) else list.relocate list.length pool

/-! ## Changes -/

/-- Adds an element; a full list doubles its capacity first. -/
def add [Element α] (list : GrowList α) (value : α) (pool : Pool α) : GrowList α × Pool α :=
  let (list, pool) :=
    if list.length = list.capacity then list.reserve (Size.mul (max list.capacity 1) 2) pool
    else (list, pool)
  let index := list.length
  ({ block := list.block.edit (·.setIfInBounds index value), length := index + 1 }, pool)

/-- Adds a run of elements, with room made for all of them first. -/
def addRange [Element α] (list : GrowList α) (run : Array α) (pool : Pool α) :
    GrowList α × Pool α :=
  if run.isEmpty then (list, pool)
  else
    let (list, pool) := list.reserve (list.length + run.size) pool
    let start := list.length
    ({ block := list.block.edit (Storage.overwrite · start run), length := start + run.size },
      pool)

/-- Adds the elements of a run one by one. -/
def addEach [Element α] (list : GrowList α) (run : Array α) (pool : Pool α) :
    GrowList α × Pool α :=
  run.foldl (fun (list, pool) value => list.add value pool) (list, pool)

/-- Stores a value at an index. -/
def set? (list : GrowList α) (index : Nat) (value : α) : Option (GrowList α) :=
  if index < list.length then
    some { list with block := list.block.edit (·.setIfInBounds index value) }
  else none

/-- Values stored over the elements from the first on, one each, until either runs out. -/
def assign (list : GrowList α) (run : Array α) : GrowList α :=
  { list with block := list.block.edit (Storage.overwrite · 0 (run.extract 0 list.length)) }

/-- Removes all elements and blanks their cells. -/
def clear [Element α] (list : GrowList α) : GrowList α where
  block := list.block.edit (Storage.blankFirst · list.length)
  length := 0

/-- Gives the memory back. The list can be used again and starts from nothing. -/
def dispose [Element α] (list : GrowList α) (pool : Pool α) : GrowList α × Pool α :=
  let (block, pool) := list.block.dispose pool
  ({ block := block, length := 0 }, pool)

/-- A list of the elements of a run, with room for no more. -/
def ofRun [Element α] (pool : Pool α) (run : Array α) : GrowList α × Pool α :=
  let (list, pool) := withCapacity pool run.size
  list.addRange run pool

/-- A list of elements that come one by one, with room for as many as are announced. -/
def collect [Element α] (pool : Pool α) (run : Array α) : GrowList α × Pool α :=
  let (list, pool) := withCapacity pool run.size
  list.addEach run pool

instance [Describe α] : Describe (GrowList α) := ⟨fun list => describe list.toArray⟩

end GrowList

end PooledBuffers
