import PooledBuffers.Pool.Config
import PooledBuffers.Pool.Counters
import PooledBuffers.Storage

/-!
# Pools of arrays

A pool is a value: its configuration, its idle arrays by size class, and its counters. Renting
and returning are functions from a pool to the next one. A request is met whatever its length is,
since allocation is taken to succeed.

* `Lease` — an array that is out, with the class it belongs to.
* `Pool.rent` — the array most recently returned to the class, as it was left, or a new one.
* `Pool.giveBack` — takes a lease back; the class keeps its array unless it is full.
* `Pool.trim` — lets go of every idle array.
-/

namespace PooledBuffers

/-- An array on loan from a pool. An array too long to pool belongs to no class. -/
structure Lease (α : Type) where
  cells : Array α
  bucket : Option Nat
  deriving Repr

namespace Lease

variable {α : Type}

/-- The lease on nothing, which a pool never counts. -/
def empty : Lease α := ⟨#[], none⟩

def capacity (lease : Lease α) : Nat := lease.cells.size

def isPooled (lease : Lease α) : Bool := lease.bucket.isSome

instance : Describe (Lease α) where
  describe lease := Text.record "Lease"
    [("capacity", describe lease.capacity), ("bucket", describe lease.bucket)]

end Lease

/-- A pool of arrays: idle ones by size class, the most recently returned first. -/
structure Pool (α : Type) where
  config : Pool.Config
  idle : Array (List (Array α))
  counters : Pool.Counters := {}
  /-- The configuration is usable. -/
  valid : config.validate = .ok ()
  /-- There is one list of idle arrays for each size class. -/
  idle_size : idle.size = config.bucketCount

namespace Pool

variable {α : Type}

/-- An empty pool with a configuration known to be usable. -/
def ofValid (config : Config) (valid : config.validate = .ok ()) : Pool α where
  config := config
  idle := Array.replicate config.bucketCount []
  valid := valid
  idle_size := by simp

/-- An empty pool, or the rule that its configuration breaks. -/
def ofConfig (config : Config) : Except Error (Pool α) :=
  match h : config.validate with
  | .ok () => .ok (ofValid config h)
  | .error e => .error e

/-- An empty pool with the standard configuration, as every element type shares one. -/
def standard : Pool α :=
  ofValid {} rfl

/-- The idle arrays of a class. -/
def bucket (pool : Pool α) (index : Nat) : List (Array α) :=
  pool.idle.getD index []

/-- The number of idle arrays. -/
def idleCount (pool : Pool α) : Nat :=
  pool.idle.foldl (fun total arrays => total + arrays.length) 0

/-- Counts a request. -/
def countRent (pool : Pool α) (reused : Bool) : Pool α :=
  { pool with counters := pool.counters.recordRent reused }

/-- Counts a return. -/
def countReturn (pool : Pool α) (kept : Bool) : Pool α :=
  { pool with counters := pool.counters.recordReturn kept }

/-- The pool with the idle arrays of one class replaced. -/
def updateBucket (pool : Pool α) (index : Nat) (f : List (Array α) → List (Array α)) : Pool α :=
  { pool with
    idle := pool.idle.modify index f
    idle_size := by simp [pool.idle_size] }

/-- Rents an array of at least `length` elements. A request for nothing gets the empty lease and
is not counted; one above the longest class gets a new array of exactly its length. -/
def rent [Element α] (pool : Pool α) (length : Nat) : Lease α × Pool α :=
  if length = 0 then (Lease.empty, pool)
  else
    match pool.config.classFor length with
    | none => (⟨Storage.blank length, none⟩, pool.countRent false)
    | some index =>
      match pool.bucket index with
      | cells :: _ => (⟨cells, some index⟩, (pool.updateBucket index List.tail).countRent true)
      | [] => (⟨Storage.blank (classLength index), some index⟩, pool.countRent false)

/-- Whether arrays are blanked on their way back. -/
def blanksReturns [Element α] (pool : Pool α) : Bool :=
  pool.config.clearOnReturn || Element.holdsResources α

/-- Takes a lease back. The array of a class lies idle from then on if the class has room, and
is thrown away otherwise, as is one that belongs to no class. -/
def giveBack [Element α] (pool : Pool α) (lease : Lease α) : Pool α :=
  match lease.bucket with
  | none => if lease.cells.isEmpty then pool else pool.countReturn false
  | some index =>
    if (pool.bucket index).length < pool.config.maxArraysPerBucket then
      let cells := if pool.blanksReturns then Storage.blank lease.cells.size else lease.cells
      (pool.updateBucket index (cells :: ·)).countReturn true
    else pool.countReturn false

/-- Lets go of every idle array and answers how many there were. -/
def trim (pool : Pool α) : Nat × Pool α :=
  (pool.idleCount,
    { pool with
      idle := pool.idle.map fun _ => []
      idle_size := by simp [pool.idle_size] })

/-- The pool in words; `element` names the type of its elements. -/
def describeAs (pool : Pool α) (element : String) : String :=
  Text.record "ArrayPool"
    [("element", describe element), ("config", describe pool.config),
      ("stats", describe pool.counters)]

end Pool

end PooledBuffers
