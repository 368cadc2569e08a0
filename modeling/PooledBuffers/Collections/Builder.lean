import PooledBuffers.Pool.Basic

/-!
# Array builders

A builder gathers elements in a rented array and rents nothing before the first of them. When its
array is full it moves to one at least twice as long.

* `Builder.add`, `Builder.addRun` — add elements.
* `Builder.doubledTo` — the doubling that finds room for a long run.
-/

namespace PooledBuffers

/-- Elements gathered in a rented array. -/
structure Builder (α : Type) where
  lease : Option (Lease α)
  /-- The length of the first array at least, never zero. -/
  minCapacity : Nat
  length : Nat
  deriving Repr

namespace Builder

variable {α : Type}

/-- The least first capacity when none is asked for. -/
def defaultMinCapacity : Nat := 16

/-- A builder without elements. -/
def withMinCapacity (minCapacity : Nat) : Builder α where
  lease := none
  minCapacity := max minCapacity 1
  length := 0

/-- The array, in use or not. -/
def physical (builder : Builder α) : Array α :=
  match builder.lease with
  | some lease => lease.cells
  | none => #[]

/-- The number of elements that fit before the builder has to grow. -/
def capacity (builder : Builder α) : Nat := builder.physical.size

def isEmpty (builder : Builder α) : Bool := builder.length = 0

/-- The elements in order. -/
def toArray (builder : Builder α) : Array α := builder.physical.extract 0 builder.length

/-- Applies an edit to the array that keeps its size. -/
def edit (builder : Builder α) (f : Array α → Array α) : Builder α :=
  match builder with
  | ⟨some lease, minCapacity, length⟩ =>
    ⟨some { lease with cells := f lease.cells }, minCapacity, length⟩
  | ⟨none, minCapacity, length⟩ => ⟨none, minCapacity, length⟩

/-- Moves the elements to a new array for `requested` of them, or the least capacity; the old
array goes back once the new one is there. -/
def grow [Element α] (builder : Builder α) (requested : Nat) (pool : Pool α) :
    Builder α × Pool α :=
  let elements := builder.toArray
  let (lease, pool) := pool.rent (max requested builder.minCapacity)
  let pool :=
    match builder.lease with
    | some old => pool.giveBack old
    | none => pool
  ({ builder with
      lease := some { lease with cells := Storage.overwrite lease.cells 0 elements } },
    pool)

/-- Doubles a capacity until it is at least `required`, up to the largest size. -/
def doubledTo (required capacity : Nat) : Nat :=
  if capacity < required ∧ capacity < Size.mul capacity 2 then
    doubledTo required (Size.mul capacity 2)
  else capacity
termination_by required - capacity

/-- Adds an element; a full builder doubles its capacity first. -/
def add [Element α] (builder : Builder α) (value : α) (pool : Pool α) : Builder α × Pool α :=
  let (builder, pool) :=
    if builder.length = builder.capacity then builder.grow (Size.mul builder.capacity 2) pool
    else (builder, pool)
  let index := builder.length
  ({ builder.edit (·.setIfInBounds index value) with length := index + 1 }, pool)

/-- Adds a run of elements; if they do not fit, the capacity is doubled until they do. -/
def addRun [Element α] (builder : Builder α) (run : Array α) (pool : Pool α) :
    Builder α × Pool α :=
  if run.isEmpty then (builder, pool)
  else
    let required := Size.add builder.length run.size
    let (builder, pool) :=
      if builder.capacity < required then
        builder.grow
          (doubledTo required (max (Size.mul builder.capacity 2) builder.minCapacity)) pool
      else (builder, pool)
    let start := builder.length
    ({ builder.edit (Storage.overwrite · start run) with length := required }, pool)

/-- Adds the elements of a run one by one. -/
def addEach [Element α] (builder : Builder α) (run : Array α) (pool : Pool α) :
    Builder α × Pool α :=
  run.foldl (fun (builder, pool) value => builder.add value pool) (builder, pool)

/-- Stores a value at an index. -/
def set (builder : Builder α) (index : Nat) (value : α) : Except Error (Builder α) :=
  if builder.length ≤ index then .error (.outOfRange "index" index builder.length)
  else .ok (builder.edit (·.setIfInBounds index value))

/-- Gives the array back. The builder can be used again and starts from nothing. -/
def dispose [Element α] (builder : Builder α) (pool : Pool α) : Builder α × Pool α :=
  ({ builder with lease := none, length := 0 },
    match builder.lease with
    | some lease => pool.giveBack lease
    | none => pool)

instance [Describe α] : Describe (Builder α) where
  describe builder := Text.record "ArrayBuilder"
    [("len", describe builder.length), ("capacity", describe builder.capacity),
      ("written", describe builder.toArray)]

end Builder

end PooledBuffers
