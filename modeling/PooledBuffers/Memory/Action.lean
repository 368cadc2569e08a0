import PooledBuffers.Reply
import PooledBuffers.Span

/-!
# Operations on leases, blocks and spans

What a caller can do with memory it holds, as data, so that whole histories can be run and
reasoned about.
-/

namespace PooledBuffers

variable {α : Type}

/-- Operations on a lease. -/
inductive Lease.Action (α : Type) where
  | set (index : Nat) (value : α)
  | fill (value : α)
  /-- Rents from the lease's pool, looks at the length, and gives back at once. -/
  | rentMore (length : Nat)

/-- Carries out an operation on a lease. -/
def Lease.perform [Element α] (lease : Lease α) (pool : Pool α) :
    Lease.Action α → Reply α × Lease α × Pool α
  | .set index value =>
    match Storage.set? lease.cells index value with
    | some cells => (.flag true, { lease with cells := cells }, pool)
    | none => (.flag false, lease, pool)
  | .fill value => (.done, { lease with cells := Storage.fill lease.cells value }, pool)
  | .rentMore length =>
    let (more, pool) := pool.rent length
    (.count more.capacity, lease, pool.giveBack more)

/-- Operations on a block. -/
inductive Block.Action (α : Type) where
  | resize (length : Nat)
  | set (index : Nat) (value : α)
  | fill (value : α)
  | get (index : Nat)
  /-- Stores a value where the caller promises a cell. -/
  | store (index : Nat) (value : α)
  | read
  | dispose

/-- Carries out an operation on a block. -/
def Block.perform [Element α] (block : Block α) (pool : Pool α) :
    Block.Action α → Reply α × Block α × Pool α
  | .resize length =>
    match block.resize? length with
    | some block => (.flag true, block, pool)
    | none => (.flag false, block, pool)
  | .set index value =>
    match block.set? index value with
    | some block => (.flag true, block, pool)
    | none => (.flag false, block, pool)
  | .fill value => (.done, block.fill value, pool)
  | .get index =>
    match block.cells[index]? with
    | some value => (.element (some value), block, pool)
    | none => (.outside ⟨.cells, index, block.length⟩, block, pool)
  | .store index value =>
    match block.set? index value with
    | some block => (.done, block, pool)
    | none => (.outside ⟨.cells, index, block.length⟩, block, pool)
  | .read => (.run block.cells, block, pool)
  | .dispose =>
    let (block, pool) := block.dispose pool
    (.done, block, pool)

/-- Operations on a span. -/
inductive Span.Action (α : Type) where
  | set (index : Nat) (value : α)
  | fill (value : α)
  | get (index : Nat)
  /-- Stores a value where the caller promises a cell. -/
  | store (index : Nat) (value : α)
  | dispose

/-- Carries out an operation on a span. -/
def Span.perform [Element α] (span : Span α) (pool : Pool α) :
    Span.Action α → Reply α × Span α × Pool α
  | .set index value =>
    match span.set? index value with
    | some span => (.flag true, span, pool)
    | none => (.flag false, span, pool)
  | .fill value => (.done, span.fill value, pool)
  | .get index =>
    match span.cells[index]? with
    | some value => (.element (some value), span, pool)
    | none => (.outside ⟨.cells, index, span.length⟩, span, pool)
  | .store index value =>
    match span.set? index value with
    | some span => (.done, span, pool)
    | none => (.outside ⟨.cells, index, span.length⟩, span, pool)
  | .dispose =>
    let (span, pool) := span.dispose pool
    (.done, span, pool)

end PooledBuffers
