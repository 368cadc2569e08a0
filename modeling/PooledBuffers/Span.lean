import PooledBuffers.Block

/-!
# Spans of memory

A span is memory to work on, lent by the caller or rented from a pool. The caller's memory
outlives the span: once a span is released it remembers in which state that memory went back.
-/

namespace PooledBuffers

/-- Memory to work on, and where it is from. -/
inductive Span (α : Type) where
  /-- Lent by the caller. -/
  | borrowed (cells : Array α)
  | rented (block : Block α)
  /-- Given up; what a caller had lent is back with the caller in this state. -/
  | released (caller : Option (Array α))
  deriving Repr

namespace Span

variable {α : Type}

/-- Rents a span of blank cells. -/
def rent [Element α] (pool : Pool α) (length : Nat) : Span α × Pool α :=
  let (block, pool) := Block.rent pool length true
  (rented block, pool)

def isRented : Span α → Bool
  | rented _ => true
  | _ => false

def isDisposed : Span α → Bool
  | released _ => true
  | _ => false

/-- The cells of the span. -/
def cells : Span α → Array α
  | borrowed cells => cells
  | rented block => block.cells
  | released _ => #[]

/-- The number of cells of the span. -/
def length : Span α → Nat
  | borrowed cells => cells.size
  | rented block => block.length
  | released _ => 0

/-- The cells from `start` to before `stop`, as far as there are any. -/
def slice : Span α → Nat → Nat → Array α
  | borrowed cells, start, stop => cells.extract start stop
  | rented block, start, stop => block.slice start stop
  | released _, _, _ => #[]

/-- The caller's memory as the span leaves it. -/
def caller : Span α → Option (Array α)
  | borrowed cells => some cells
  | rented _ => none
  | released caller => caller

/-- Applies an edit that keeps the size and stays within the span. -/
def edit (span : Span α) (f : Array α → Array α) : Span α :=
  match span with
  | borrowed cells => borrowed (f cells)
  | rented block => rented (block.edit f)
  | released caller => released caller

/-- Stores a value into a cell of the span. -/
def set? (span : Span α) (index : Nat) (value : α) : Option (Span α) :=
  if index < span.length then some (span.edit (·.setIfInBounds index value)) else none

/-- Stores a value into every cell of the span. -/
def fill (span : Span α) (value : α) : Span α :=
  span.edit (Storage.overwrite · 0 (Array.replicate span.length value))

/-- Gives rented memory back to the pool and lent memory back to the caller. -/
def dispose [Element α] (span : Span α) (pool : Pool α) : Span α × Pool α :=
  match span with
  | borrowed cells => (released (some cells), pool)
  | rented block => (released none, (block.dispose pool).2)
  | released caller => (released caller, pool)

/-- The word for where a span's memory is from. -/
def originWord : Span α → String
  | borrowed _ => "borrowed"
  | rented _ => "leased"
  | released _ => "released"

instance : Describe (Span α) where
  describe span := Text.record "SpanOwner"
    [("origin", describe span.originWord), ("len", describe span.length)]

end Span

end PooledBuffers
