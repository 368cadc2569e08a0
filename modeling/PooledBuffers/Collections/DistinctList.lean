import PooledBuffers.Collections.GrowList

/-!
# Lists of distinct elements

A growing list that keeps the first of equal elements. Equality is whatever the element type says
it is; an element that does not equal itself is kept every time it comes.
-/

namespace PooledBuffers

/-- A list without an element that equals an earlier one. -/
structure DistinctList (α : Type) where
  list : GrowList α
  deriving Repr

namespace DistinctList

variable {α : Type}

/-- An empty list with room for some elements. -/
def withCapacity [Element α] (pool : Pool α) (capacity : Nat) : DistinctList α × Pool α :=
  let (list, pool) := GrowList.withCapacity pool capacity
  (⟨list⟩, pool)

def length (distinct : DistinctList α) : Nat := distinct.list.length

def isEmpty (distinct : DistinctList α) : Bool := distinct.list.isEmpty

/-- The elements in the order of their first coming. -/
def toArray (distinct : DistinctList α) : Array α := distinct.list.toArray

/-- The element at an index. -/
def get? (distinct : DistinctList α) (index : Nat) : Option α := distinct.list.get? index

/-- The element at an index that should be there. -/
def get (distinct : DistinctList α) (index : Nat) : Except IndexFault α :=
  distinct.list.get index

/-- Whether some element equals a value. -/
def contains [BEq α] (distinct : DistinctList α) (value : α) : Bool :=
  distinct.list.contains value

/-- Whether some element equals one of a run. -/
def containsAny [BEq α] (distinct : DistinctList α) (run : Array α) : Bool :=
  distinct.toArray.any fun value => run.any (· == value)

/-- Adds an element unless an equal one is there, and answers whether it was added. -/
def add [Element α] [BEq α] (distinct : DistinctList α) (value : α) (pool : Pool α) :
    Bool × DistinctList α × Pool α :=
  if distinct.contains value then (false, distinct, pool)
  else
    let (list, pool) := distinct.list.add value pool
    (true, ⟨list⟩, pool)

/-- Adds the elements of a run one by one, and answers how many were added. -/
def addRange [Element α] [BEq α] (distinct : DistinctList α) (run : Array α) (pool : Pool α) :
    Nat × DistinctList α × Pool α :=
  run.foldl
    (fun (count, distinct, pool) value =>
      let (added, distinct, pool) := distinct.add value pool
      (if added then count + 1 else count, distinct, pool))
    (0, distinct, pool)

/-- Removes all elements. -/
def clear [Element α] (distinct : DistinctList α) : DistinctList α := ⟨distinct.list.clear⟩

/-- Gives the memory back. The list can be used again and starts from nothing. -/
def dispose [Element α] (distinct : DistinctList α) (pool : Pool α) :
    DistinctList α × Pool α :=
  let (list, pool) := distinct.list.dispose pool
  (⟨list⟩, pool)

/-- A list of the distinct elements of a run, with room for all of the run. -/
def ofRun [Element α] [BEq α] (pool : Pool α) (run : Array α) : DistinctList α × Pool α :=
  let (distinct, pool) := withCapacity pool run.size
  (distinct.addRange run pool).2

/-- A list of distinct elements that come one by one, with no room made for them ahead. -/
def collect [Element α] [BEq α] (pool : Pool α) (run : Array α) : DistinctList α × Pool α :=
  let (distinct, pool) := withCapacity pool 0
  (distinct.addRange run pool).2

instance [Describe α] : Describe (DistinctList α) where
  describe distinct := Text.set (distinct.toArray.toList.map describe)

end DistinctList

end PooledBuffers
